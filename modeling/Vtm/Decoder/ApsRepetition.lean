import Vtm.Common.ParameterSetMap

/-!
# Repeated adaptation parameter sets

`DecLib::xDecodeAPS` checks each APS of an access unit against those before it and
stores it. The check and the store compute the place of an APS by different formulas.
`accessUnit_spec` says what a run over an access unit does as long as the formulas
agree on the sets that are repeated.
-/

namespace Vtm

/-- An APS NAL unit: its bytes, and where the object that is read from them keeps the
coefficients of its scaling list. -/
structure ApsNalu where
  naluData : List UInt8
  scalingListCoefData : Nat

/-- `m_parameterSetManager` and `m_accessUnitApsNals` of `DecLib`. -/
structure ApsState (AlfParam SliceReshapeInfo : Type) where
  apsMap : ApsMap AlfParam SliceReshapeInfo
  accessUnitApsNals : List Nat

section Run

variable {AlfParam SliceReshapeInfo : Type} [DecidableEq AlfParam] [DecidableEq SliceReshapeInfo]
variable (parseAPS : List UInt8 → Aps AlfParam SliceReshapeInfo)

/-- The APS that is read from a NAL unit. -/
@[grind =] def ApsNalu.aps (nalu : ApsNalu) : Aps AlfParam SliceReshapeInfo := parseAPS nalu.naluData

/-- The object for it. -/
def ApsNalu.object (nalu : ApsNalu) : ApsObject AlfParam SliceReshapeInfo :=
  { nalu.aps parseAPS with scalingListCoefData := nalu.scalingListCoefData }

/-- `xDecodeAPS`, behind the reader. -/
def xDecodeAPS (state : ApsState AlfParam SliceReshapeInfo) (nalu : ApsNalu) :
    Checked (ApsState AlfParam SliceReshapeInfo) := do
  let aps := nalu.object parseAPS
  let accessUnitApsNals ← state.apsMap.checkAuApsContent aps state.accessUnitApsNals
  let apsMap ← state.apsMap.storeAPS aps nalu.naluData
  return ⟨apsMap, accessUnitApsNals⟩

/-- The APS NAL units of an access unit, one after the other. -/
def decodeApss : ApsState AlfParam SliceReshapeInfo → List ApsNalu →
    Checked (ApsState AlfParam SliceReshapeInfo)
  | state, [] => return state
  | state, nalu :: rest => do
      let state ← xDecodeAPS parseAPS state nalu
      decodeApss state rest

/-- `adaptation_parameter_set_id` and `aps_params_type`. -/
def ApsNalu.pair (nalu : ApsNalu) : Nat × ApsType :=
  ((nalu.aps parseAPS).apsId, (nalu.aps parseAPS).apsType)

/-- Two sets of a type have equal content. -/
def SameContent (first second : Aps AlfParam SliceReshapeInfo) : Prop :=
  match first.apsType with
  | .ALF_APS => first.alfAPSParam = second.alfAPSParam
  | .LMCS_APS => first.reshapeAPSInfo = second.reshapeAPSInfo
  | .SCALING_LIST_APS => first.scalingListApsInfo = second.scalingListApsInfo
  | .reserved _ => True

/-- Sets of the same id and type have equal content. -/
def ContentsAgree (nalus : List ApsNalu) : Prop :=
  ∀ first ∈ nalus, ∀ second ∈ nalus, first.pair parseAPS = second.pair parseAPS →
    SameContent (first.aps parseAPS) (second.aps parseAPS)

/-- The last of the NAL units with an id and a type. -/
def lastOf (nalus : List ApsNalu) (apsId : Nat) (apsType : ApsType) : Option ApsNalu :=
  (nalus.filter fun nalu => nalu.pair parseAPS = (apsId, apsType)).getLast?

/-- The stored sets are those of their NAL units, each at the place of its id and type. -/
def ParameterSetMap.Consistent (map : ApsMap AlfParam SliceReshapeInfo) : Prop :=
  map.maxId = 256 ∧ ∀ key mapData, map.paramsetMap key = some mapData →
    ∃ naluData, mapData.pNaluData = some naluData ∧
      mapData.parameterSet.toAps = parseAPS naluData ∧
      key = apsMapKey mapData.parameterSet.apsId mapData.parameterSet.apsType

end Run

theorem ApsType.code_lt (t : ApsType) : t.code < 8 := by
  cases t with
  | reserved value =>
      simp only [ApsType.code]
      omega
  | _ => decide

theorem ApsType.code_injective : Function.Injective ApsType.code := by
  intro t t' same
  cases t <;> cases t' <;> simp_all [ApsType.code]; omega

/-- Different pairs are stored in different places. -/
theorem apsMapKey_inj {apsId apsId' : Nat} {t t' : ApsType} (small : apsId < 32)
    (small' : apsId' < 32) (same : apsMapKey apsId t = apsMapKey apsId' t') :
    apsId = apsId' ∧ t = t' := by
  unfold apsMapKey at same
  exact ⟨by omega, ApsType.code_injective (by omega)⟩

theorem apsMapKey_lt {apsId : Nat} (t : ApsType) (small : apsId < 32) :
    apsMapKey apsId t < 256 := by
  have code := t.code_lt
  unfold apsMapKey
  omega

/-- The check tells different pairs apart as well. -/
theorem auApsKey_inj {apsId apsId' : Nat} {t t' : ApsType}
    (same : auApsKey apsId t = auApsKey apsId' t') : apsId = apsId' ∧ t = t' := by
  have code := t.code_lt
  have code' := t'.code_lt
  unfold auApsKey at same
  rw [Nat.shiftLeft_eq, Nat.shiftLeft_eq] at same
  exact ⟨by omega, ApsType.code_injective (by omega)⟩

section Spec

variable {AlfParam SliceReshapeInfo : Type}
variable {parseAPS : List UInt8 → Aps AlfParam SliceReshapeInfo}

/-- The content that the map has for an id and a type. -/
def ParameterSetMap.contentOf (map : ApsMap AlfParam SliceReshapeInfo) (apsId : Nat)
    (apsType : ApsType) : Option (Aps AlfParam SliceReshapeInfo) :=
  (map.getAPS apsId apsType).map ApsObject.toAps

/-- `storeAPS` makes an APS the content of its id and type, also where it keeps the
object of the same bytes. -/
theorem storeAPS_spec {map : ApsMap AlfParam SliceReshapeInfo} (consistent : map.Consistent parseAPS)
    (nalu : ApsNalu) :
    ∃ map', map.storeAPS (nalu.object parseAPS) nalu.naluData = .ok map' ∧
      map'.Consistent parseAPS ∧ ∀ apsId < 32, ∀ t, map'.contentOf apsId t =
        if nalu.pair parseAPS = (apsId, t) then some (nalu.aps parseAPS)
        else map.contentOf apsId t := by
  have small : ((nalu.aps parseAPS).apsId : Nat) < 32 := (nalu.aps parseAPS).apsId.isLt
  obtain ⟨map', entry, stored, maxId, written, data, set⟩ := map.storePS_spec
    (nalu.object parseAPS) nalu.naluData (by
      rw [consistent.1]
      exact apsMapKey_lt (nalu.aps parseAPS).apsType small)
  have content : entry.parameterSet.toAps = nalu.aps parseAPS := by
    rcases set with new | ⟨old, here, same, kept⟩
    · rw [new]
      rfl
    · obtain ⟨naluData, data', content, -⟩ := consistent.2 _ _ here
      rw [same, Option.some.injEq] at data'
      rw [kept, content, ← data']
      rfl
  refine ⟨map', stored, ⟨maxId.trans consistent.1, ?_⟩, ?_⟩
  · intro key mapData here
    rw [written, Function.update_apply] at here
    split at here
    · rename_i place
      cases here
      exact ⟨nalu.naluData, data, content, by rw [content]; exact place⟩
    · exact consistent.2 key mapData here
  · intro apsId inside t
    unfold ParameterSetMap.contentOf ParameterSetMap.getAPS ParameterSetMap.getPS
    rw [written, Function.update_apply]
    by_cases same : nalu.pair parseAPS = (apsId, t)
    · obtain ⟨rfl, rfl⟩ := Prod.mk.inj same
      rw [if_pos rfl, if_pos same, Option.map_some, Option.map_some, content]
    · have apart : apsMapKey apsId t ≠
          apsMapKey (nalu.aps parseAPS).apsId (nalu.aps parseAPS).apsType := by
        intro equal
        obtain ⟨rfl, rfl⟩ := apsMapKey_inj inside small equal
        exact same rfl
      rw [if_neg apart, if_neg same]

theorem lastOf_append (seen : List ApsNalu) (nalu : ApsNalu) (apsId : Nat) (t : ApsType) :
    lastOf parseAPS (seen ++ [nalu]) apsId t =
      if nalu.pair parseAPS = (apsId, t) then some nalu else lastOf parseAPS seen apsId t := by
  unfold lastOf
  rw [List.filter_append]
  by_cases same : nalu.pair parseAPS = (apsId, t)
  · simp [same]
  · simp [same]

variable (parseAPS) in
/-- What holds behind the NAL units `seen` of an access unit: their pairs are noted, and
the map has the last content of each of them, and for all others what it had before. -/
structure AccessUnitInv (initial : ApsMap AlfParam SliceReshapeInfo) (seen : List ApsNalu)
    (state : ApsState AlfParam SliceReshapeInfo) : Prop where
  consistent : state.apsMap.Consistent parseAPS
  noted : ∀ apsId t, auApsKey apsId t ∈ state.accessUnitApsNals ↔
    ∃ nalu ∈ seen, nalu.pair parseAPS = (apsId, t)
  stored : ∀ apsId < 32, ∀ t, state.apsMap.contentOf apsId t =
    ((lastOf parseAPS seen apsId t).map (ApsNalu.aps parseAPS)).or (initial.contentOf apsId t)

/-- At the start of an access unit. -/
theorem AccessUnitInv.start {initial : ApsMap AlfParam SliceReshapeInfo}
    (consistent : initial.Consistent parseAPS) :
    AccessUnitInv parseAPS initial [] ⟨initial, []⟩ :=
  ⟨consistent, fun _ _ => by simp, fun _ _ _ => by simp [lastOf]⟩

variable (parseAPS) in
/-- No pair but the first ALF set is repeated. -/
def RepeatsFirstAlfOnly (nalus : List ApsNalu) : Prop :=
  nalus.Pairwise fun earlier later => earlier.pair parseAPS = later.pair parseAPS →
    later.pair parseAPS = (0, .ALF_APS)

theorem sameContent_alf {first second : ApsNalu} (pair : first.pair parseAPS = (0, .ALF_APS)) :
    SameContent (first.aps parseAPS) (second.aps parseAPS) ↔
      (first.aps parseAPS).alfAPSParam = (second.aps parseAPS).alfAPSParam := by
  have alf : (first.aps parseAPS).apsType = .ALF_APS := (Prod.mk.inj pair).2
  rw [SameContent, alf]

theorem sameContent_self (aps : Aps AlfParam SliceReshapeInfo) : SameContent aps aps := by
  unfold SameContent
  split <;> trivial

/-- A set that is new, or that agrees with one of its pair, joins sets that agree. -/
theorem ContentsAgree.append {seen : List ApsNalu} (agree : ContentsAgree parseAPS seen)
    {nalu : ApsNalu} (joins : ∀ earlier ∈ seen, earlier.pair parseAPS = nalu.pair parseAPS →
      SameContent (earlier.aps parseAPS) (nalu.aps parseAPS) ∧
        SameContent (nalu.aps parseAPS) (earlier.aps parseAPS)) :
    ContentsAgree parseAPS (seen ++ [nalu]) := by
  intro first member second member' same
  simp only [List.mem_append, List.mem_singleton] at member member'
  rcases member with before | rfl
  · rcases member' with before' | rfl
    · exact agree first before second before' same
    · exact (joins first before same).1
  · rcases member' with before' | rfl
    · exact (joins second before' same.symm).2
    · exact sameContent_self _

variable [DecidableEq AlfParam] [DecidableEq SliceReshapeInfo]

/-- The pairs that the check notes. -/
theorem checkAuApsContent_noted {map : ApsMap AlfParam SliceReshapeInfo}
    {aps : ApsObject AlfParam SliceReshapeInfo} {nals nals' : List Nat}
    (passed : map.checkAuApsContent aps nals = .ok nals') (key : Nat) :
    key ∈ nals' ↔ key ∈ nals ∨ key = auApsKey aps.apsId aps.apsType := by
  unfold ParameterSetMap.checkAuApsContent at passed
  dsimp only at passed
  split at passed
  · rename_i known
    split at passed
    · cases passed
    · obtain ⟨_, -, kept⟩ := bind_eq_ok_iff.mp passed
      cases kept
      constructor
      · exact Or.inl
      · rintro (here | rfl)
        · exact here
        · exact known
  · cases passed
    simp

variable {initial : ApsMap AlfParam SliceReshapeInfo}

/-- One NAL unit that is accepted. -/
theorem AccessUnitInv.step {seen : List ApsNalu} {state state' : ApsState AlfParam SliceReshapeInfo}
    (inv : AccessUnitInv parseAPS initial seen state) {nalu : ApsNalu}
    (decoded : xDecodeAPS parseAPS state nalu = .ok state') :
    AccessUnitInv parseAPS initial (seen ++ [nalu]) state' := by
  obtain ⟨nals, passed, rest⟩ := bind_eq_ok_iff.mp decoded
  obtain ⟨map, stored, built⟩ := bind_eq_ok_iff.mp rest
  cases built
  obtain ⟨map', stored', consistent, content⟩ := storeAPS_spec inv.consistent nalu
  cases stored.symm.trans stored'
  refine ⟨consistent, fun apsId t => ?_, fun apsId small t => ?_⟩
  · have here : auApsKey apsId t = auApsKey (nalu.object parseAPS).apsId
        (nalu.object parseAPS).apsType ↔ nalu.pair parseAPS = (apsId, t) := by
      constructor
      · intro same
        obtain ⟨rfl, rfl⟩ := auApsKey_inj same
        rfl
      · intro same
        obtain ⟨rfl, rfl⟩ := Prod.mk.inj same
        rfl
    rw [checkAuApsContent_noted passed, inv.noted, here]
    simp [or_and_right, exists_or]
  · rw [content apsId small t, lastOf_append]
    split
    · rfl
    · exact inv.stored apsId small t

/-- All NAL units up to some point, when they are accepted. -/
theorem AccessUnitInv.run {seen nalus : List ApsNalu}
    {state state' : ApsState AlfParam SliceReshapeInfo}
    (inv : AccessUnitInv parseAPS initial seen state)
    (decoded : decodeApss parseAPS state nalus = .ok state') :
    AccessUnitInv parseAPS initial (seen ++ nalus) state' := by
  induction nalus generalizing seen state with
  | nil =>
      cases decoded
      rwa [List.append_nil]
  | cons nalu rest ih =>
      obtain ⟨next, first, others⟩ := bind_eq_ok_iff.mp decoded
      have behind := ih (inv.step first) others
      rwa [List.append_assoc] at behind

/-- A pair that is new in the access unit is accepted. -/
theorem AccessUnitInv.accepts_new {seen : List ApsNalu}
    {state : ApsState AlfParam SliceReshapeInfo} (inv : AccessUnitInv parseAPS initial seen state)
    {nalu : ApsNalu} (new : ∀ earlier ∈ seen, earlier.pair parseAPS ≠ nalu.pair parseAPS) :
    ∃ state', xDecodeAPS parseAPS state nalu = .ok state' := by
  have unknown : auApsKey (nalu.object parseAPS).apsId (nalu.object parseAPS).apsType ∉
      state.accessUnitApsNals := by
    intro known
    obtain ⟨earlier, member, same⟩ := (inv.noted _ _).mp known
    exact new earlier member same
  obtain ⟨map, stored, -⟩ := storeAPS_spec inv.consistent nalu
  have passed : state.apsMap.checkAuApsContent (nalu.object parseAPS) state.accessUnitApsNals =
      .ok (state.accessUnitApsNals ++
        [auApsKey (nalu.object parseAPS).apsId (nalu.object parseAPS).apsType]) := by
    unfold ParameterSetMap.checkAuApsContent
    rw [if_neg unknown]
    rfl
  exact ⟨_, bind_eq_ok_iff.mpr ⟨_, passed, bind_eq_ok_iff.mpr ⟨map, stored, rfl⟩⟩⟩

/-- For the first ALF set both formulas give the same place: it is accepted again when it
has the content of the last one. -/
theorem AccessUnitInv.accepts_again_iff {seen : List ApsNalu}
    {state : ApsState AlfParam SliceReshapeInfo} (inv : AccessUnitInv parseAPS initial seen state)
    {nalu last : ApsNalu} (pair : nalu.pair parseAPS = (0, .ALF_APS))
    (before : lastOf parseAPS seen 0 .ALF_APS = some last) :
    (∃ state', xDecodeAPS parseAPS state nalu = .ok state') ↔
      (nalu.aps parseAPS).alfAPSParam = (last.aps parseAPS).alfAPSParam := by
  obtain ⟨apsId, apsType⟩ := Prod.mk.inj pair
  have key : auApsKey (nalu.object parseAPS).apsId (nalu.object parseAPS).apsType = 0 := by
    have zero : ((nalu.object parseAPS).apsId : Nat) = 0 := apsId
    have alf : (nalu.object parseAPS).apsType = .ALF_APS := apsType
    rw [zero, alf]
    rfl
  have known : 0 ∈ state.accessUnitApsNals := by
    have member := List.mem_of_mem_getLast? (show last ∈ _ from before)
    rw [List.mem_filter] at member
    exact (inv.noted 0 .ALF_APS).mpr ⟨last, member.1, by simpa using member.2⟩
  have content := inv.stored 0 (by decide) .ALF_APS
  rw [before, Option.map_some, Option.some_or] at content
  obtain ⟨object, found, same⟩ := Option.map_eq_some_iff.mp content
  obtain ⟨mapData, entry, rfl⟩ := Option.map_eq_some_iff.mp found
  have entry : state.apsMap.paramsetMap 0 = some mapData := entry
  have alf : (nalu.object parseAPS).apsType = .ALF_APS := apsType
  have checked : (∃ nals, state.apsMap.checkAuApsContent (nalu.object parseAPS)
      state.accessUnitApsNals = .ok nals) ↔
      (nalu.aps parseAPS).alfAPSParam = (last.aps parseAPS).alfAPSParam := by
    unfold ParameterSetMap.checkAuApsContent
    dsimp only
    rw [key, if_pos known]
    simp only [entry, checkSameContent, alf, CHECK_bind_eq_ok_iff]
    rw [← same]
    constructor
    · rintro ⟨_, passed, -⟩
      exact not_not.mp passed
    · intro equal
      exact ⟨_, not_not.mpr equal, rfl⟩
  rw [← checked]
  constructor
  · rintro ⟨state', decoded⟩
    obtain ⟨nals, passed, -⟩ := bind_eq_ok_iff.mp decoded
    exact ⟨nals, passed⟩
  · rintro ⟨nals, passed⟩
    obtain ⟨map, stored, -⟩ := storeAPS_spec inv.consistent nalu
    exact ⟨_, bind_eq_ok_iff.mpr ⟨nals, passed, bind_eq_ok_iff.mpr ⟨map, stored, rfl⟩⟩⟩

/-- An access unit goes on exactly when the contents of its sets agree. The induction is on
the NAL units that are still to come. -/
theorem AccessUnitInv.accepts_iff {seen nalus : List ApsNalu}
    {state : ApsState AlfParam SliceReshapeInfo} (inv : AccessUnitInv parseAPS initial seen state)
    (repeats : RepeatsFirstAlfOnly parseAPS (seen ++ nalus)) (agree : ContentsAgree parseAPS seen) :
    (∃ final, decodeApss parseAPS state nalus = .ok final) ↔
      ContentsAgree parseAPS (seen ++ nalus) := by
  induction nalus generalizing seen state with
  | nil =>
      rw [List.append_nil]
      exact iff_of_true ⟨state, rfl⟩ agree
  | cons nalu rest ih =>
      have go (agree' : ContentsAgree parseAPS (seen ++ [nalu]))
          (passes : ∃ state', xDecodeAPS parseAPS state nalu = .ok state') :
          (∃ final, decodeApss parseAPS state (nalu :: rest) = .ok final) ↔
            ContentsAgree parseAPS (seen ++ nalu :: rest) := by
        obtain ⟨state', decoded⟩ := passes
        have others := ih (inv.step decoded) (by rwa [List.append_assoc]) agree'
        rw [List.append_assoc] at others
        rw [← List.singleton_append, ← others]
        constructor
        · rintro ⟨final, run⟩
          obtain ⟨next, first, run⟩ := bind_eq_ok_iff.mp run
          cases decoded.symm.trans first
          exact ⟨final, run⟩
        · rintro ⟨final, run⟩
          exact ⟨final, bind_eq_ok_iff.mpr ⟨state', decoded, run⟩⟩
      by_cases new : ∀ earlier ∈ seen, earlier.pair parseAPS ≠ nalu.pair parseAPS
      · refine go (agree.append fun earlier member same => ?_) (inv.accepts_new new)
        exact absurd same (new earlier member)
      · push Not at new
        obtain ⟨earlier, member, same⟩ := new
        have pair : nalu.pair parseAPS = (0, .ALF_APS) :=
          (List.pairwise_append.mp repeats).2.2 earlier member nalu List.mem_cons_self same
        obtain ⟨last, before⟩ : ∃ last, lastOf parseAPS seen 0 .ALF_APS = some last := by
          have some : earlier ∈ seen.filter fun nalu => nalu.pair parseAPS = (0, .ALF_APS) :=
            List.mem_filter.mpr ⟨member, by simpa [pair] using same⟩
          exact ⟨_, List.getLast?_eq_some_getLast (List.ne_nil_of_mem some)⟩
        have lastSeen : last ∈ seen ∧ last.pair parseAPS = (0, .ALF_APS) := by
          have inside := List.mem_of_mem_getLast? (show last ∈ _ from before)
          rw [List.mem_filter] at inside
          exact ⟨inside.1, by simpa using inside.2⟩
        have again := inv.accepts_again_iff pair before
        by_cases equal : (nalu.aps parseAPS).alfAPSParam = (last.aps parseAPS).alfAPSParam
        · refine go (agree.append fun other member' same' => ?_) (again.mpr equal)
          have first := agree other member' last lastSeen.1
            ((same'.trans pair).trans lastSeen.2.symm)
          rw [sameContent_alf (same'.trans pair)] at first
          rw [sameContent_alf (same'.trans pair), sameContent_alf pair, first, equal]
          exact ⟨rfl, rfl⟩
        · constructor
          · rintro ⟨final, run⟩
            obtain ⟨next, first, -⟩ := bind_eq_ok_iff.mp run
            exact absurd (again.mp ⟨next, first⟩) equal
          · intro all
            refine absurd ?_ equal
            rw [← sameContent_alf pair]
            exact all nalu (by simp) last (by simp [lastSeen.1]) (pair.trans lastSeen.2.symm)

variable (parseAPS initial) in
/-- In an access unit that repeats no other APS than the ALF one of id 0, the sets are
accepted exactly when those of the same id and type have equal content; behind every part
of it that is accepted, `getAPS` gives the last content of each pair and has not changed
for any other, and different pairs have different places. -/
theorem accessUnit_spec (consistent : initial.Consistent parseAPS) (nalus : List ApsNalu)
    (repeats : RepeatsFirstAlfOnly parseAPS nalus) :
    ((∃ final, decodeApss parseAPS ⟨initial, []⟩ nalus = .ok final) ↔
        ContentsAgree parseAPS nalus) ∧
      (∀ accepted state, accepted <+: nalus →
        decodeApss parseAPS ⟨initial, []⟩ accepted = .ok state → ∀ apsId < 32, ∀ t,
          state.apsMap.contentOf apsId t =
            ((lastOf parseAPS accepted apsId t).map (ApsNalu.aps parseAPS)).or
              (initial.contentOf apsId t)) ∧
      ∀ apsId < 32, ∀ apsId' < 32, ∀ t t', apsMapKey apsId t = apsMapKey apsId' t' →
        apsId = apsId' ∧ t = t' := by
  have start := AccessUnitInv.start consistent
  refine ⟨?_, ?_, ?_⟩
  · exact start.accepts_iff repeats fun _ none => by cases none
  · intro accepted state _ decoded
    exact (start.run decoded).stored
  · intro apsId small apsId' small' t t' same
    exact apsMapKey_inj small small' same

end Spec

/-- A map without sets. -/
def emptyApsMap : ApsMap Nat Nat := ⟨fun _ => none, 256, [], none⟩

/-- A reader of sets that differ in id and type only. -/
def parsePair (apsId : Fin 32) (apsType : ApsType) : List UInt8 → Aps Nat Nat :=
  fun _ => ⟨apsId, apsType, 0, 0, 0, 0,
    ⟨false, fun _ => false, fun _ => 16, fun _ => 0, fun _ => false, fun _ _ => 16⟩⟩

theorem emptyApsMap_consistent (parseAPS : List UInt8 → Aps Nat Nat) :
    emptyApsMap.Consistent parseAPS := ⟨rfl, fun _ _ none => by cases none⟩

theorem contentsAgree_parsePair (apsId : Fin 32) (apsType : ApsType) (nalus : List ApsNalu) :
    ContentsAgree (parsePair apsId apsType) nalus :=
  fun _ _ _ _ _ => sameContent_self _

/-- The ALF set of id 0 is accepted twice. -/
theorem accepts_first_alf_twice :
    ∃ final, decodeApss (parsePair 0 .ALF_APS) ⟨emptyApsMap, []⟩ [⟨[0], 0⟩, ⟨[0], 1⟩] = .ok final :=
  (accessUnit_spec (parsePair 0 .ALF_APS) emptyApsMap (emptyApsMap_consistent _)
    [⟨[0], 0⟩, ⟨[0], 1⟩] (by simp [RepeatsFirstAlfOnly, ApsNalu.pair, ApsNalu.aps, parsePair])).1.mpr
    (contentsAgree_parsePair _ _ _)

/-- That of id 1 is not, although its content is the same. -/
theorem rejects_second_alf_twice :
    emptyApsMap.Consistent (parsePair 1 .ALF_APS) ∧
      ContentsAgree (parsePair 1 .ALF_APS) [⟨[0], 0⟩, ⟨[0], 1⟩] ∧
      decodeApss (parsePair 1 .ALF_APS) ⟨emptyApsMap, []⟩ [⟨[0], 0⟩, ⟨[0], 1⟩] =
        .error "APS does not exist" :=
  ⟨emptyApsMap_consistent _, contentsAgree_parsePair _ _ _, rfl⟩

end Vtm
