import Vtm.Common.BitStream
import Vtm.Common.ScalingList

/-!
# Parameter set map

`ParameterSetMap` and its instance for adaptation parameter sets in
`ParameterSetManager`. The map is a function from keys to entries; an object is its
value, together with the place of those buffers that the source compares by address.
-/

namespace Vtm

structure MapData (T : Type) where
  bChanged : Bool
  pNaluData : Option (List UInt8)
  parameterSet : T

structure ParameterSetMap (T : Type) where
  paramsetMap : Nat → Option (MapData T)
  maxId : Nat
  activePsId : List Nat
  lastActiveParameterSet : Option T

def calculateParameterSetChangedFlag (bChanged : Bool) (pOldData pNewData : Option (List UInt8)) :
    Bool :=
  if ¬ bChanged then
    match pOldData, pNewData with
    | none, some _ => true
    | some _, none => true
    | some old, some new => old ≠ new
    | none, none => bChanged
  else bChanged

namespace ParameterSetMap

variable {T : Type} (map : ParameterSetMap T)

/-- `storePS`. Of a set that has not changed the old object is kept. -/
def storePS (psId : Nat) (ps : T) (pNaluData : Option (List UInt8)) :
    Checked (ParameterSetMap T) := do
  CHECK (psId ≥ map.maxId) "Invalid PS id"
  match map.paramsetMap psId with
  | some mapData =>
      let bChanged := calculateParameterSetChangedFlag mapData.bChanged mapData.pNaluData pNaluData
      if ¬ bChanged then
        return { map with
          paramsetMap := Function.update map.paramsetMap psId
            (some { mapData with bChanged := bChanged }) }
      else
        return { map with
          paramsetMap := Function.update map.paramsetMap psId (some ⟨bChanged, pNaluData, ps⟩)
          lastActiveParameterSet :=
            if psId ∈ map.activePsId then some mapData.parameterSet
            else map.lastActiveParameterSet }
  | none =>
      return { map with
        paramsetMap := Function.update map.paramsetMap psId (some ⟨false, pNaluData, ps⟩) }

def getPS (psId : Nat) : Option T := (map.paramsetMap psId).map MapData.parameterSet

/-- `storePS` writes one entry, for the new bytes: with the new set, or with the old one
if it is of the same bytes. -/
theorem storePS_spec {psId : Nat} (ps : T) (naluData : List UInt8) (small : psId < map.maxId) :
    ∃ map' entry, map.storePS psId ps (some naluData) = .ok map' ∧ map'.maxId = map.maxId ∧
      map'.paramsetMap = Function.update map.paramsetMap psId (some entry) ∧
      entry.pNaluData = some naluData ∧
      (entry.parameterSet = ps ∨ ∃ old, map.paramsetMap psId = some old ∧
        old.pNaluData = some naluData ∧ entry.parameterSet = old.parameterSet) := by
  unfold storePS
  rw [CHECK_of_not (Nat.not_le.mpr small)]
  cases here : map.paramsetMap psId with
  | none => exact ⟨_, _, rfl, rfl, rfl, rfl, Or.inl rfl⟩
  | some old =>
      cases changed : calculateParameterSetChangedFlag old.bChanged old.pNaluData
          (some naluData) with
      | true =>
          simp only [changed]
          exact ⟨_, _, rfl, rfl, rfl, rfl, Or.inl rfl⟩
      | false =>
          have same : old.pNaluData = some naluData := by
            unfold calculateParameterSetChangedFlag at changed
            cases flag : old.bChanged with
            | true => simp [flag] at changed
            | false =>
                cases data : old.pNaluData with
                | none => simp [flag, data] at changed
                | some bytes => simpa [flag, data] using changed
          simp only [changed]
          exact ⟨_, _, rfl, rfl, rfl, same, Or.inr ⟨old, rfl, same, rfl⟩⟩

end ParameterSetMap

/-- `ApsType`. The reader casts three bits to it, so that the values without a name occur. -/
inductive ApsType where
  | ALF_APS
  | LMCS_APS
  | SCALING_LIST_APS
  | reserved (value : Fin 5)
deriving DecidableEq, Repr

/-- The value of an `ApsType`. -/
def ApsType.code : ApsType → Nat
  | .ALF_APS => 0
  | .LMCS_APS => 1
  | .SCALING_LIST_APS => 2
  | .reserved value => value + 3

/-- The content of an `APS`, over the parameters of the loop filter and of the reshaper,
whose comparisons are those of all their members. -/
structure Aps (AlfParam SliceReshapeInfo : Type) where
  apsId : Fin 32
  apsType : ApsType
  temporalId : Nat
  layerId : Nat
  alfAPSParam : AlfParam
  reshapeAPSInfo : SliceReshapeInfo
  scalingListApsInfo : ScalingList

/-- An `APS` object. The coefficients of its scaling list are in vectors of its own. -/
structure ApsObject (AlfParam SliceReshapeInfo : Type) extends Aps AlfParam SliceReshapeInfo where
  /-- Where the vectors keep the coefficients. -/
  scalingListCoefData : Nat

section Manager

variable {AlfParam SliceReshapeInfo : Type}

/-- The members of `ParameterSetManager` for adaptation parameter sets: `m_apsMap`. -/
abbrev ApsMap (AlfParam SliceReshapeInfo : Type) :=
  ParameterSetMap (ApsObject AlfParam SliceReshapeInfo)

/-- The key of the map in `storeAPS` and `getAPS`, with `MAX_NUM_APS` = 32. -/
def apsMapKey (apsId : Nat) (apsType : ApsType) : Nat := apsId + 32 * apsType.code

def ParameterSetMap.storeAPS (map : ApsMap AlfParam SliceReshapeInfo)
    (aps : ApsObject AlfParam SliceReshapeInfo) (naluData : List UInt8) :
    Checked (ApsMap AlfParam SliceReshapeInfo) :=
  map.storePS (apsMapKey aps.apsId aps.apsType) aps (some naluData)

def ParameterSetMap.getAPS (map : ApsMap AlfParam SliceReshapeInfo) (apsId : Nat)
    (apsType : ApsType) : Option (ApsObject AlfParam SliceReshapeInfo) :=
  map.getPS (apsMapKey apsId apsType)

/-- `apsId` of `checkAuApsContent`, with `NUM_APS_TYPE_LEN` = 3. -/
def auApsKey (apsId : Nat) (apsType : ApsType) : Nat := (apsId <<< 3) + apsType.code

/-- `operator==` of `ScalingList`. The vectors of the coefficients are compared as objects:
by where they keep them. -/
def scalingListEq (aps existedAPS : ApsObject AlfParam SliceReshapeInfo) : Prop :=
  (∀ i < 30, aps.scalingListApsInfo.scalingListPredModeFlagIsCopy i =
      existedAPS.scalingListApsInfo.scalingListPredModeFlagIsCopy i) ∧
    (∀ i < 30, aps.scalingListApsInfo.scalingListDC i =
      existedAPS.scalingListApsInfo.scalingListDC i) ∧
    (∀ i < 30, aps.scalingListApsInfo.refMatrixId i =
      existedAPS.scalingListApsInfo.refMatrixId i) ∧
    aps.scalingListCoefData = existedAPS.scalingListCoefData

instance (aps existedAPS : ApsObject AlfParam SliceReshapeInfo) :
    Decidable (scalingListEq aps existedAPS) := inferInstanceAs (Decidable (_ ∧ _ ∧ _ ∧ _))

/-- The text of a check of `checkAuApsContent`. -/
def sameContentMessage : String :=
  "All APS NAL units with a particular value of adaptation_parameter_set_id and a " ++
    "particular value of aps_params_type within an access unit shall have the same content"

variable [DecidableEq AlfParam] [DecidableEq SliceReshapeInfo]

/-- The comparison of `checkAuApsContent`, by the type of the new set. -/
def checkSameContent (aps existedAPS : ApsObject AlfParam SliceReshapeInfo) : Checked Unit :=
  match aps.apsType with
  | .LMCS_APS => CHECK (aps.reshapeAPSInfo ≠ existedAPS.reshapeAPSInfo) sameContentMessage
  | .ALF_APS => CHECK (aps.alfAPSParam ≠ existedAPS.alfAPSParam) sameContentMessage
  | .SCALING_LIST_APS => CHECK (¬ scalingListEq aps existedAPS) sameContentMessage
  | .reserved _ => CHECK True "Wrong APS type"

/-- `checkAuApsContent`: `accessUnitApsNals` behind the check. -/
@[grind =] def ParameterSetMap.checkAuApsContent (map : ApsMap AlfParam SliceReshapeInfo)
    (aps : ApsObject AlfParam SliceReshapeInfo) (accessUnitApsNals : List Nat) :
    Checked (List Nat) :=
  let apsId := auApsKey aps.apsId aps.apsType
  if apsId ∈ accessUnitApsNals then
    match map.paramsetMap apsId with
    | none => throw "APS does not exist"
    | some mapData => do
        let existedAPS := mapData.parameterSet
        checkSameContent aps existedAPS
        return accessUnitApsNals
  else return accessUnitApsNals ++ [apsId]

end Manager

end Vtm
