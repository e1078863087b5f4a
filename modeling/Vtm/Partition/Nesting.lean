import Vtm.Partition.Partitioner

/-!
# Nested splits

`Opened split p q` says what an open split has done to the counters of the partitioner
`p` it was applied to, whatever has happened inside of it. Leaving the split gives
back `p`, and nothing below the split looks at more than that.
-/

namespace Vtm.Partitioner

open PartSplit

/-! ## The question for the implicit split -/

/-- The level knows its implicit split. -/
def Asked (p : Partitioner) : Prop := p.back.checkdIfImplicit = true

/-- What a level that knows its implicit split says of it. -/
def CacheSound (p : Partitioner) : Prop :=
  p.Asked → p.back.isImplicit = decide (p.back.implicitSplit ≠ .CU_DONT_SPLIT)

/-- The same partitioner, with other knowledge of the implicit split. -/
def SameButCache (p q : Partitioner) : Prop :=
  ∃ checkd isImplicit implicitSplit, q = { p with back := { p.back with
    checkdIfImplicit := checkd, isImplicit, implicitSplit } }

theorem SameButCache.refl (p : Partitioner) : SameButCache p p := ⟨_, _, _, rfl⟩

theorem getImplicitSplit_of_asked {p : Partitioner} (asked : p.Asked) (cs : PartitionParams) :
    p.getImplicitSplit cs = .ok (p.back.implicitSplit, p) := by
  unfold getImplicitSplit
  exact if_pos asked

theorem getImplicitSplit_spec {p q : Partitioner} {cs : PartitionParams} {split : PartSplit}
    (run : p.getImplicitSplit cs = .ok (split, q)) :
    q.Asked ∧ SameButCache p q ∧ split = q.back.implicitSplit ∧ (p.CacheSound → q.CacheSound) ∧
      (p.Asked → q = p) := by
  by_cases asked : p.Asked
  · rw [getImplicitSplit_of_asked asked] at run
    cases run
    exact ⟨asked, .refl p, rfl, id, fun _ => rfl⟩
  · unfold getImplicitSplit at run
    rw [if_neg (show ¬ p.back.checkdIfImplicit = true from asked)] at run
    obtain ⟨area, -, run⟩ := bind_eq_ok_iff.mp run
    cases run
    exact ⟨rfl, ⟨_, _, _, rfl⟩, rfl, fun _ _ => rfl, fun yes => absurd yes asked⟩

theorem canSplitAll_spec {p q : Partitioner} {cs : PartitionParams} {can : CanSplit}
    (run : p.canSplitAll cs = .ok (can, q)) :
    ∃ area, q.currArea = .ok area ∧ p.getImplicitSplit cs = .ok (q.back.implicitSplit, q) ∧
      can = canSplitOf cs q q.back.implicitSplit area := by
  unfold canSplitAll at run
  obtain ⟨⟨split, asked⟩, implicit, run⟩ := bind_eq_ok_iff.mp run
  obtain ⟨area, current, run⟩ := bind_eq_ok_iff.mp run
  cases run
  obtain ⟨-, -, rfl, -⟩ := getImplicitSplit_spec implicit
  exact ⟨area, current, implicit, rfl⟩

/-- Asking for permission answers the question for the implicit split first. -/
theorem canSplit_spec {p q : Partitioner} {cs : PartitionParams} {split : PartSplit} {may : Bool}
    (run : p.canSplit cs split = .ok (may, q)) :
    ∃ area, p.currArea = .ok area ∧ q.currArea = .ok area ∧
      p.getImplicitSplit cs = .ok (q.back.implicitSplit, q) := by
  unfold canSplit at run
  obtain ⟨area, current, run⟩ := bind_eq_ok_iff.mp run
  obtain ⟨⟨can, asked⟩, all, run⟩ := bind_eq_ok_iff.mp run
  obtain ⟨area', current', implicit, -⟩ := canSplitAll_spec all
  have same : asked = q := by
    cases split <;> first | (cases run; rfl) | cases run
  subst same
  obtain ⟨-, ⟨_, _, _, rfl⟩, -⟩ := getImplicitSplit_spec implicit
  exact ⟨area, current, current, implicit⟩

/-- A split of the multi-type tree is only permitted where it is the implicit split or
there is none. -/
theorem implicit_of_permitted {p q : Partitioner} {cs : PartitionParams} {split : PartSplit}
    (multi : split.isMultiType) (run : p.canSplit cs split = .ok (true, q)) :
    q.back.implicitSplit = split ∨ q.back.implicitSplit = .CU_DONT_SPLIT := by
  unfold canSplit at run
  obtain ⟨_, _, run⟩ := bind_eq_ok_iff.mp run
  obtain ⟨⟨can, asked⟩, all, run⟩ := bind_eq_ok_iff.mp run
  obtain ⟨area, _, _, can_eq⟩ := canSplitAll_spec all
  by_contra neither
  rw [not_or] at neither
  obtain ⟨other, known⟩ := neither
  cases split <;> cases multi
  all_goals
    obtain ⟨may, rfl⟩ := Prod.mk.inj (Except.ok.inj run)
    rw [can_eq] at may
    unfold canSplitOf at may
    simp only [ne_eq, known, not_false_eq_true, if_true] at may
    split at may
    · cases may
    · simp [other] at may

/-! ## Quantisation groups -/

/-- The quantisation groups of a level that enables them start at the current area. -/
def Aligned (p : Partitioner) : Prop := ∀ area, p.currArea = .ok area →
  (p.back.qgEnable → p.currQgPos = area.lumaPos) ∧
  (p.back.qgChromaEnable → p.currQgChromaPos = area.chromaPos)

/-- The partitioner with the quantisation groups at other positions. -/
def groupsAt (p : Partitioner) (luma chroma : Position) : Partitioner :=
  { p with currQgPos := luma, currQgChromaPos := chroma }

theorem moveQg_cases {p q : Partitioner} (run : p.moveQg = .ok q) :
    ∃ luma chroma, q = p.groupsAt luma chroma ∧
      (p.back.qgEnable = false → luma = p.currQgPos) ∧
      (p.back.qgChromaEnable = false → chroma = p.currQgChromaPos) ∧ q.Aligned := by
  obtain ⟨r, first, second⟩ := bind_eq_ok_iff.mp run
  unfold moveQgPos at first
  unfold moveQgChromaPos at second
  by_cases luma : p.back.qgEnable = true
  · rw [if_pos luma] at first
    obtain ⟨area, current, first⟩ := bind_eq_ok_iff.mp first
    cases first
    by_cases chroma : p.back.qgChromaEnable = true
    · rw [if_pos chroma] at second
      obtain ⟨area', current', second⟩ := bind_eq_ok_iff.mp second
      cases second
      cases current.symm.trans current'
      refine ⟨area.lumaPos, area.chromaPos, rfl, by simp [luma], by simp [chroma], ?_⟩
      intro a here
      cases current.symm.trans here
      exact ⟨fun _ => rfl, fun _ => rfl⟩
    · rw [if_neg chroma] at second
      cases second
      refine ⟨area.lumaPos, p.currQgChromaPos, rfl, by simp [luma], fun _ => rfl, ?_⟩
      intro a here
      cases current.symm.trans here
      exact ⟨fun _ => rfl, fun yes => absurd yes chroma⟩
  · rw [if_neg luma] at first
    cases first
    by_cases chroma : p.back.qgChromaEnable = true
    · rw [if_pos chroma] at second
      obtain ⟨area, current, second⟩ := bind_eq_ok_iff.mp second
      cases second
      refine ⟨p.currQgPos, area.chromaPos, rfl, fun _ => rfl, by simp [chroma], ?_⟩
      intro a here
      cases current.symm.trans here
      exact ⟨fun yes => absurd yes luma, fun _ => rfl⟩
    · rw [if_neg chroma] at second
      cases second
      exact ⟨_, _, rfl, fun _ => rfl, fun _ => rfl,
        fun _ _ => ⟨fun yes => absurd yes luma, fun yes => absurd yes chroma⟩⟩

/-- Back at an area, the groups are where they were. -/
theorem Aligned.moveQg_eq {p : Partitioner} {area : UnitArea} (aligned : p.Aligned)
    (current : p.currArea = .ok area) {luma chroma : Position}
    (same : p.back.qgEnable = false → luma = p.currQgPos)
    (sameChroma : p.back.qgChromaEnable = false → chroma = p.currQgChromaPos) :
    (p.groupsAt luma chroma).moveQg = .ok p := by
  have current' (a b : Position) : (p.groupsAt a b).currArea = .ok area := current
  obtain ⟨here, hereChroma⟩ := aligned area current
  have first : (p.groupsAt luma chroma).moveQgPos = .ok (p.groupsAt p.currQgPos chroma) := by
    unfold moveQgPos
    by_cases enabled : p.back.qgEnable = true
    · rw [if_pos (show (p.groupsAt luma chroma).back.qgEnable = true from enabled), current',
        here enabled]
      rfl
    · rw [if_neg (show ¬ (p.groupsAt luma chroma).back.qgEnable = true from enabled),
        same (Bool.eq_false_iff.mpr enabled)]
  have second : (p.groupsAt p.currQgPos chroma).moveQgChromaPos = .ok p := by
    unfold moveQgChromaPos
    by_cases enabled : p.back.qgChromaEnable = true
    · rw [if_pos (show (p.groupsAt p.currQgPos chroma).back.qgChromaEnable = true from enabled),
        current']
      show Except.ok (p.groupsAt p.currQgPos area.chromaPos) = .ok p
      rw [← hereChroma enabled]
      rfl
    · rw [if_neg (show ¬ (p.groupsAt p.currQgPos chroma).back.qgChromaEnable = true from enabled),
        sameChroma (Bool.eq_false_iff.mpr enabled)]
      rfl
  exact bind_eq_ok_iff.mpr ⟨_, first, second⟩

/-! ## Open splits -/

/-- What the partitioner knows of its current area is right. -/
structure Good (p : Partitioner) : Prop where
  aligned : p.Aligned
  sound : p.CacheSound

/-- The outer parts of a ternary split count double. -/
@[grind =] def outerPart (kind : PartSplit) (idx : Nat) : Nat := if kind.isTernary ∧ idx ≠ 1 then 1 else 0

/-- `q` is inside a split that was applied to `p`. -/
structure Opened (kind : PartSplit) (p q : Partitioner) : Prop where
  asked : p.Asked
  good : p.Good
  current : ∃ area, p.currArea = .ok area
  known : kind.isMultiType ∨ kind.isTransform ∨ kind = .CU_QUAD_SPLIT
  apart : kind.isTransform = false → p.currTrDepth = 0
  below : q.below = p.back :: p.below
  split : q.back.split = kind
  parts : kind.isTernary → q.back.parts.length = 3
  depth : q.currDepth = p.currDepth + 1
  trDepth : q.currTrDepth = p.currTrDepth + if kind.isTransform then 1 else 0
  qtDepth : q.currQtDepth = p.currQtDepth + if kind = .CU_QUAD_SPLIT then 1 else 0
  btDepth : q.currBtDepth =
    p.currBtDepth + if kind.isMultiType then 1 + outerPart kind q.back.idx else 0
  mtDepth : q.currMtDepth = p.currMtDepth + if kind.isMultiType then 1 else 0
  subdiv : q.currSubdiv = p.currSubdiv + 1 +
    if kind = .CU_QUAD_SPLIT then 1 else outerPart kind q.back.idx
  implicit : q.currImplicitBtDepth =
    p.currImplicitBtDepth + if kind.isMultiType ∧ p.back.isImplicit then 1 else 0
  qg : p.back.qgEnable = false → q.back.qgEnable = false ∧ q.currQgPos = p.currQgPos
  qgChroma : p.back.qgChromaEnable = false →
    q.back.qgChromaEnable = false ∧ q.currQgChromaPos = p.currQgChromaPos

/-- The channel, the tree and the modes are set by the callers. -/
def turn (p : Partitioner) (chType : ChannelType) (treeType : TreeType) (modeType : ModeType) :
    Partitioner :=
  { p with chType, treeType, modeType }

section

variable {kind : PartSplit} {p q r : Partitioner}

theorem Opened.of_sameButCache (opened : Opened kind p q) (same : SameButCache q r) :
    Opened kind p r := by
  obtain ⟨_, _, _, rfl⟩ := same
  exact { opened with }

theorem Opened.turn (opened : Opened kind p q) (chType : ChannelType) (treeType : TreeType)
    (modeType : ModeType) : Opened kind p (q.turn chType treeType modeType) :=
  { opened with }

theorem Good.of_sameButCache (good : p.Good) (same : SameButCache p q) (sound : q.CacheSound) :
    q.Good := by
  obtain ⟨_, _, _, rfl⟩ := same
  exact ⟨good.aligned, sound⟩

theorem Good.turn (good : p.Good) (chType : ChannelType) (treeType : TreeType)
    (modeType : ModeType) : (p.turn chType treeType modeType).Good :=
  ⟨good.aligned, good.sound⟩

/-! ### Leaving a split -/

/-- The counters of an open split, seen from the level it was applied to. -/
def levelLeft (p q : Partitioner) : Partitioner :=
  { p with
    currTrDepth := q.currTrDepth
    currQtDepth := q.currQtDepth
    currBtDepth := q.currBtDepth
    currMtDepth := q.currMtDepth
    currSubdiv := q.currSubdiv - 1
    currImplicitBtDepth := q.currImplicitBtDepth
    chType := q.chType
    treeType := q.treeType
    modeType := q.modeType }

theorem Opened.leaveSplit_eq (opened : Opened kind p q) :
    (levelLeft p q).leaveSplit kind q.back.idx = .ok (p.turn q.chType q.treeType q.modeType) := by
  obtain ⟨asked, -, -, known, apart, -, -, -, -, trDepth, qtDepth, btDepth, mtDepth, subdiv,
    implicit, -, -⟩ := opened
  unfold leaveSplit
  rcases known with multi | transform | rfl
  · have noQuad : kind ≠ .CU_QUAD_SPLIT := by rintro rfl; cases multi
    have noTransform : kind.isTransform = false := by cases kind <;> cases multi <;> rfl
    simp only [multi, noQuad, noTransform, Bool.false_eq_true, if_true, if_false, true_and]
      at btDepth mtDepth subdiv qtDepth trDepth implicit
    rw [if_pos multi]
    refine CHECK_bind_eq_ok_iff.mpr ⟨fun no => Bool.noConfusion (asked.symm.trans no), ?_⟩
    refine CHECK_bind_eq_ok_iff.mpr ⟨show ¬ q.currBtDepth = 0 by omega, ?_⟩
    refine CHECK_bind_eq_ok_iff.mpr ⟨show ¬ q.currMtDepth = 0 by omega, ?_⟩
    by_cases outer : kind.isTernary ∧ q.back.idx ≠ 1
    · rw [outerPart, if_pos outer] at btDepth subdiv
      rw [if_pos outer]
      refine CHECK_bind_eq_ok_iff.mpr ⟨show ¬ q.currBtDepth - 1 = 0 by omega, ?_⟩
      cases flag : p.back.isImplicit <;>
        simp [levelLeft, Partitioner.turn, pure, Except.pure, flag] at implicit ⊢ <;> omega
    · rw [outerPart, if_neg outer] at btDepth subdiv
      rw [if_neg outer]
      cases flag : p.back.isImplicit <;>
        simp [levelLeft, Partitioner.turn, pure, Except.pure, flag] at implicit ⊢ <;> omega
  · have noMulti : kind.isMultiType = false := by cases kind <;> cases transform <;> rfl
    have noQuad : kind ≠ .CU_QUAD_SPLIT := by rintro rfl; cases transform
    have inner : outerPart kind q.back.idx = 0 := by cases kind <;> cases transform <;> rfl
    simp only [noMulti, noQuad, transform, inner, Bool.false_eq_true, if_true, if_false, false_and]
      at btDepth mtDepth subdiv qtDepth trDepth implicit
    rw [if_neg (by simp [noMulti]), if_pos transform]
    refine CHECK_bind_eq_ok_iff.mpr ⟨show ¬ q.currTrDepth = 0 by omega, ?_⟩
    simp [levelLeft, Partitioner.turn, pure, Except.pure]
    omega
  · have noTransform := apart rfl
    simp [PartSplit.isMultiType, PartSplit.isTransform, PartSplit.isSbt]
      at btDepth mtDepth subdiv qtDepth trDepth implicit
    rw [if_neg (by decide), if_neg (by decide)]
    refine CHECK_bind_eq_ok_iff.mpr ⟨show ¬ q.currTrDepth > 0 by omega, ?_⟩
    refine CHECK_bind_eq_ok_iff.mpr ⟨show ¬ q.currQtDepth = 0 by omega, ?_⟩
    simp [levelLeft, Partitioner.turn, pure, Except.pure]
    omega

/-- Leaving a split gives back the partitioner it was applied to. -/
theorem Opened.exitCurrSplit_eq (opened : Opened kind p q) :
    q.exitCurrSplit = .ok (p.turn q.chType q.treeType q.modeType) := by
  obtain ⟨area, current⟩ := opened.current
  have popped : q.popLevel = .ok { q with back := p.back, below := p.below } := by
    unfold popLevel
    rw [opened.below]
  have aligned : (levelLeft p q).Aligned := opened.good.aligned
  have moved := aligned.moveQg_eq current (fun off => (opened.qg off).2)
    fun off => (opened.qgChroma off).2
  have depth : q.currDepth - 1 = p.currDepth := by rw [opened.depth]; rfl
  have deep : ¬ q.currDepth = 0 := by rw [opened.depth]; exact Nat.succ_ne_zero _
  have middle : (levelLeft p q).groupsAt q.currQgPos q.currQgChromaPos =
      { q with
        back := p.back
        below := p.below
        currDepth := q.currDepth - 1
        currSubdiv := q.currSubdiv - 1 } := by
    rw [depth]
    rfl
  rw [middle] at moved
  unfold exitCurrSplit
  refine bind_eq_ok_iff.mpr ⟨_, popped, CHECK_bind_eq_ok_iff.mpr ⟨deep, ?_⟩⟩
  refine bind_eq_ok_iff.mpr ⟨_, moved, ?_⟩
  rw [opened.split]
  exact opened.leaveSplit_eq

/-! ### Applying a split -/

theorem partsOf_known {cs : PartitionParams} {area : UnitArea} {parts : List UnitArea}
    (run : partsOf cs kind area = .ok parts) :
    (kind.isMultiType ∨ kind.isTransform ∨ kind = .CU_QUAD_SPLIT) ∧
      (kind.isTernary → parts.length = 3) := by
  cases kind <;> first
    | exact ⟨by decide, fun ternary => Bool.noConfusion ternary⟩
    | cases run
    | skip
  all_goals
    refine ⟨by decide, fun _ => ?_⟩
    obtain ⟨-, run⟩ := CHECK_bind_eq_ok_iff.mp run
    cases run
    rfl

/-- The counters inside of a split, whatever was known of the level before. -/
theorem enterSplit_cases {isImplicit canQtSplit : Bool}
    (run : p.enterSplit kind isImplicit canQtSplit = .ok q) :
    ∃ canQt, q = { p with
      back := { p.back with canQtSplit := canQt }
      currDepth := p.currDepth + 1
      currTrDepth := if kind.isTransform then p.currTrDepth + 1 else 0
      currQtDepth := p.currQtDepth + if kind = .CU_QUAD_SPLIT then 1 else 0
      currBtDepth := p.currBtDepth + if kind.isMultiType then 1 + outerPart kind 0 else 0
      currMtDepth := p.currMtDepth + if kind.isMultiType then 1 else 0
      currSubdiv := p.currSubdiv + 1 + if kind = .CU_QUAD_SPLIT then 1 else outerPart kind 0
      currImplicitBtDepth :=
        p.currImplicitBtDepth + if kind.isMultiType ∧ isImplicit then 1 else 0 } := by
  unfold enterSplit at run
  by_cases multi : kind.isMultiType = true
  · have noQuad : kind ≠ .CU_QUAD_SPLIT := by rintro rfl; cases multi
    rw [if_pos multi] at run
    cases run
    refine ⟨canQtSplit, ?_⟩
    cases isImplicit <;> simp [multi, noQuad, outerPart, Nat.add_assoc]
  · rw [if_neg multi] at run
    by_cases quad : kind = .CU_QUAD_SPLIT
    · subst quad
      rw [if_pos rfl] at run
      obtain ⟨bt, run⟩ := CHECK_bind_eq_ok_iff.mp run
      obtain ⟨mt, run⟩ := CHECK_bind_eq_ok_iff.mp run
      cases run
      have bt' : p.currBtDepth = 0 := Nat.eq_zero_of_not_pos bt
      have mt' : p.currMtDepth = 0 := Nat.eq_zero_of_not_pos mt
      exact ⟨p.back.canQtSplit, by simp [PartSplit.isMultiType, bt', mt']⟩
    · rw [if_neg quad] at run
      cases run
      have inner : outerPart kind 0 = 0 := by
        rw [outerPart, if_neg]
        rintro ⟨ternary, -⟩
        exact multi (by cases kind <;> cases ternary <;> rfl)
      exact ⟨p.back.canQtSplit, by simp [multi, quad, inner]⟩

/-- The split may be applied to the current area. -/
def Permits (cs : PartitionParams) (kind : PartSplit) (p : Partitioner) : Prop :=
  ∃ q, p.canSplit cs kind = .ok (true, q)

/-- A split of coding units is not inside of a split of transform units. -/
def Apart (kind : PartSplit) (p : Partitioner) : Prop :=
  kind.isTransform = false → p.currTrDepth = 0

theorem pushLevel_cases (p : Partitioner) (kind : PartSplit) (parts : List UnitArea) :
    ∃ mode, p.pushLevel kind parts = { p with
      back := { PartLevel.ofParts kind parts with modeType := mode }
      below := p.back :: p.below } := by
  unfold pushLevel
  split
  · exact ⟨p.modeType, rfl⟩
  · exact ⟨.MODE_TYPE_ALL, rfl⟩

/-- What `splitCurrArea` does, once the question for the implicit split is answered. -/
theorem splitCurrArea_cases {cs : PartitionParams} (run : p.splitCurrArea cs kind = .ok q) :
    ∃ r area parts canQt s, p.getImplicitSplit cs = .ok (r.back.implicitSplit, r) ∧
      r.currArea = .ok area ∧ partsOf cs kind area = .ok parts ∧
      enterSplit kind (kind = r.back.implicitSplit) canQt (r.pushLevel kind parts) = .ok s ∧
      moveQg { s with back := { s.back with
        qgEnable := r.back.qgEnable && s.currSubdiv ≤ cs.cuQpDeltaSubdiv
        qgChromaEnable :=
          r.back.qgChromaEnable && s.currSubdiv ≤ cs.cuChromaQpOffsetSubdiv } } = .ok q := by
  unfold splitCurrArea isSplitImplicit at run
  obtain ⟨⟨isImplicit, r⟩, first, run⟩ := bind_eq_ok_iff.mp run
  obtain ⟨⟨implicit, r'⟩, question, first⟩ := bind_eq_ok_iff.mp first
  cases first
  obtain ⟨asked, -, rfl, -⟩ := getImplicitSplit_spec question
  obtain ⟨⟨canQt, r'⟩, second, run⟩ := bind_eq_ok_iff.mp run
  obtain ⟨area, current, -, again⟩ := canSplit_spec second
  rw [getImplicitSplit_of_asked asked] at again
  obtain ⟨-, rfl⟩ := Prod.mk.inj (Except.ok.inj again)
  obtain ⟨area', current', run⟩ := bind_eq_ok_iff.mp run
  cases current.symm.trans current'
  obtain ⟨parts, split, run⟩ := bind_eq_ok_iff.mp run
  obtain ⟨s, entered, moved⟩ := bind_eq_ok_iff.mp run
  exact ⟨r, area, parts, canQt, s, question, current, split, entered, moved⟩

/-- A permitted split opens, on the level that knows its implicit split. -/
theorem opened_of_split {cs : PartitionParams} (good : p.Good) (may : p.Permits cs kind)
    (apart : p.Apart kind) (run : p.splitCurrArea cs kind = .ok q) :
    ∃ r, p.getImplicitSplit cs = .ok (r.back.implicitSplit, r) ∧ Opened kind r q ∧ q.Good := by
  obtain ⟨r, area, parts, canQt, s, question, current, split, entered, moved⟩ :=
    splitCurrArea_cases run
  obtain ⟨asked, same, -, sound, -⟩ := getImplicitSplit_spec question
  have goodAsked : r.Good := good.of_sameButCache same (sound good.sound)
  have apartAsked : kind.isTransform = false → r.currTrDepth = 0 := by
    obtain ⟨_, _, _, rfl⟩ := same
    exact apart
  -- the cached flag and the flag that `splitCurrArea` uses agree on permitted splits
  have flags : kind.isMultiType → decide (kind = r.back.implicitSplit) = r.back.isImplicit := by
    intro multi
    obtain ⟨r', permitted⟩ := may
    obtain ⟨_, _, _, question'⟩ := canSplit_spec permitted
    obtain ⟨-, rfl⟩ := Prod.mk.inj (Except.ok.inj (question.symm.trans question'))
    rw [goodAsked.sound asked]
    rcases implicit_of_permitted multi permitted with same | none
    · rw [same]
      cases kind <;> cases multi <;> rfl
    · rw [none]
      cases kind <;> cases multi <;> rfl
  obtain ⟨known, three⟩ := partsOf_known split
  obtain ⟨_, pushed⟩ := pushLevel_cases r kind parts
  rw [pushed] at entered
  obtain ⟨_, rfl⟩ := enterSplit_cases entered
  obtain ⟨luma, chroma, rfl, lumaStays, chromaStays, aligned⟩ := moveQg_cases moved
  refine ⟨r, question, ?_, aligned, fun asked => Bool.noConfusion asked⟩
  exact {
    asked, good := goodAsked, current := ⟨area, current⟩, known, apart := apartAsked
    below := rfl
    split := rfl
    parts := three
    depth := rfl
    trDepth := by
      show (if kind.isTransform then r.currTrDepth + 1 else 0) = _
      split
      · rfl
      · next other => exact (apartAsked (Bool.eq_false_iff.mpr other)).symm
    qtDepth := rfl
    btDepth := rfl
    mtDepth := rfl
    subdiv := rfl
    implicit := by
      show r.currImplicitBtDepth +
        (if kind.isMultiType ∧ decide (kind = r.back.implicitSplit) then 1 else 0) = _
      by_cases multi : kind.isMultiType = true
      · rw [flags multi]
      · simp [multi]
    qg := by
      intro off
      have off' (b : Bool) : (r.back.qgEnable && b) = false := by rw [off, Bool.false_and]
      exact ⟨off' _, lumaStays (off' _)⟩
    qgChroma := by
      intro off
      have off' (b : Bool) : (r.back.qgChromaEnable && b) = false := by rw [off, Bool.false_and]
      exact ⟨off' _, chromaStays (off' _)⟩ }

/-! ### The next part -/

/-- The level moves to the next part and forgets what it knew of the last one. -/
theorem nextLevel_cases {cs : PartitionParams} {level : PartLevel}
    (run : p.nextLevel cs = .ok level) :
    ∃ first, level = { p.back with
      idx := (p.back.idx + 1) % 2 ^ 32
      checkdIfImplicit := false
      isImplicit := false
      firstSubPartSplit := first } := by
  unfold nextLevel at run
  change (if (p.back.idx + 1) % 2 ^ 32 = 1 then _ else _) = _ at run
  split at run
  · obtain ⟨first, -, run⟩ := bind_eq_ok_iff.mp run
    cases run
    exact ⟨first, rfl⟩
  · cases run
    exact ⟨p.back.firstSubPartSplit, rfl⟩

theorem nextPart_cases {cs : PartitionParams} {more : Bool}
    (run : p.nextPart cs false = .ok (more, q)) :
    ∃ level, p.nextLevel cs = .ok level ∧
      (level.idx < level.parts.length ∧ moveQg (enterPart { p with back := level }) = .ok q ∨
        ¬ level.idx < level.parts.length ∧ q = { p with back := level }) := by
  unfold nextPart at run
  obtain ⟨level, next, run⟩ := bind_eq_ok_iff.mp run
  refine ⟨level, next, ?_⟩
  change (if level.idx < level.parts.length then _ else _) = _ at run
  split at run
  · next inside =>
    obtain ⟨r, moved, run⟩ := bind_eq_ok_iff.mp run
    cases run
    exact .inl ⟨inside, moved⟩
  · next outside =>
    cases run
    exact .inr ⟨outside, rfl⟩

/-- `enterPart` only changes the counters that depend on the part. -/
theorem enterPart_eq (p : Partitioner) : ∃ btDepth subdiv,
    p.enterPart = { p with currBtDepth := btDepth, currSubdiv := subdiv } := by
  unfold enterPart
  split
  · split
    · exact ⟨_, _, rfl⟩
    · exact ⟨_, _, rfl⟩
  · exact ⟨_, _, rfl⟩

theorem nextPart_below {cs : PartitionParams} {more : Bool}
    (run : p.nextPart cs false = .ok (more, q)) : q.below = p.below := by
  obtain ⟨level, -, ⟨-, moved⟩ | ⟨-, rfl⟩⟩ := nextPart_cases run
  · obtain ⟨_, _, entered⟩ := enterPart_eq { p with back := level }
    obtain ⟨_, _, rfl, -⟩ := moveQg_cases moved
    rw [entered]
    rfl
  · rfl

theorem nextPart_good {cs : PartitionParams} {more : Bool}
    (run : p.nextPart cs false = .ok (more, q)) : q.Good := by
  obtain ⟨level, next, ⟨-, moved⟩ | ⟨outside, rfl⟩⟩ := nextPart_cases run
  · obtain ⟨_, rfl⟩ := nextLevel_cases next
    obtain ⟨_, _, entered⟩ := enterPart_eq { p with back := _ }
    rw [entered] at moved
    obtain ⟨_, _, rfl, -, -, aligned⟩ := moveQg_cases moved
    exact ⟨aligned, fun asked => Bool.noConfusion asked⟩
  · obtain ⟨_, rfl⟩ := nextLevel_cases next
    refine ⟨?_, fun asked => Bool.noConfusion asked⟩
    intro area current
    unfold currArea at current
    rw [List.getElem?_eq_none (Nat.le_of_not_lt outside)] at current
    cases current

theorem outerPart_of_not_ternary (single : kind.isTernary = false) (idx : Nat) :
    outerPart kind idx = 0 := by
  rw [outerPart, if_neg (by simp [single])]

/-- Behind the last part the counters stay. -/
theorem Opened.outerPart_behind (opened : Opened kind p q)
    (outside : ¬ q.back.idx + 1 < q.back.parts.length) :
    outerPart kind (q.back.idx + 1) = outerPart kind q.back.idx := by
  cases ternary : kind.isTernary
  · rw [outerPart_of_not_ternary ternary, outerPart_of_not_ternary ternary]
  · rw [opened.parts ternary] at outside
    rw [outerPart, if_pos ⟨ternary, by omega⟩, outerPart, if_pos ⟨ternary, by omega⟩]

/-- `enterPart` keeps the counters in step with the part. -/
theorem Opened.enterPart_eq (opened : Opened kind p q) {level : PartLevel}
    (split : level.split = kind) (idx : level.idx = q.back.idx + 1)
    (inside : q.back.idx + 1 < q.back.parts.length) :
    enterPart { q with back := level } = { q with
      back := level
      currBtDepth := p.currBtDepth + if kind.isMultiType then 1 + outerPart kind level.idx else 0
      currSubdiv := p.currSubdiv + 1 +
        if kind = .CU_QUAD_SPLIT then 1 else outerPart kind level.idx } := by
  have btDepth := opened.btDepth
  have subdiv := opened.subdiv
  rw [enterPart]
  cases ternary : kind.isTernary
  · rw [if_neg (by simp [split, ternary])]
    rw [outerPart_of_not_ternary ternary] at btDepth subdiv ⊢
    rw [← btDepth, ← subdiv]
  · have multi : kind.isMultiType = true := by cases kind <;> cases ternary <;> rfl
    have noQuad : kind ≠ .CU_QUAD_SPLIT := by rintro rfl; cases ternary
    rw [opened.parts ternary] at inside
    rw [if_pos (by simp [split, ternary])]
    simp only [multi, noQuad, if_true, if_false] at btDepth subdiv ⊢
    obtain first | second : q.back.idx = 0 ∨ q.back.idx = 1 := by omega
    · have middle : level.idx = 1 := by omega
      simp [outerPart, ternary, first, middle] at btDepth subdiv ⊢
      omega
    · have last : level.idx = 2 := by omega
      simp [outerPart, ternary, second, last] at btDepth subdiv ⊢
      omega

theorem Opened.next {cs : PartitionParams} {more : Bool} (opened : Opened kind p q)
    (small : q.back.idx + 1 < 2 ^ 32) (run : q.nextPart cs false = .ok (more, r)) :
    Opened kind p r := by
  obtain ⟨level, next, reached⟩ := nextPart_cases run
  obtain ⟨_, level_eq⟩ := nextLevel_cases next
  rw [Nat.mod_eq_of_lt small] at level_eq
  have sameSplit : level.split = q.back.split := by rw [level_eq]
  have sameParts : level.parts = q.back.parts := by rw [level_eq]
  have idx : level.idx = q.back.idx + 1 := by rw [level_eq]
  have sameQg : level.qgEnable = q.back.qgEnable := by rw [level_eq]
  have sameQgChroma : level.qgChromaEnable = q.back.qgChromaEnable := by rw [level_eq]
  rw [idx, sameParts] at reached
  obtain ⟨inside, moved⟩ | ⟨outside, rfl⟩ := reached
  · rw [opened.enterPart_eq (sameSplit.trans opened.split) idx inside] at moved
    obtain ⟨luma, chroma, rfl, lumaStays, chromaStays, -⟩ := moveQg_cases moved
    have qg := opened.qg
    have qgChroma := opened.qgChroma
    rw [← sameQg] at qg
    rw [← sameQgChroma] at qgChroma
    exact { opened with
      split := sameSplit.trans opened.split
      parts := sameParts ▸ opened.parts
      btDepth := rfl
      subdiv := rfl
      qg := fun off => ⟨(qg off).1, (lumaStays (qg off).1).trans (qg off).2⟩
      qgChroma := fun off =>
        ⟨(qgChroma off).1, (chromaStays (qgChroma off).1).trans (qgChroma off).2⟩ }
  · have stays := opened.outerPart_behind outside
    have btDepth := opened.btDepth
    have subdiv := opened.subdiv
    rw [← stays, ← idx] at btDepth subdiv
    exact { opened with
      split := sameSplit.trans opened.split
      parts := sameParts ▸ opened.parts
      btDepth := btDepth
      subdiv := subdiv
      qg := sameQg ▸ opened.qg
      qgChroma := sameQgChroma ▸ opened.qgChroma }

end

end Vtm.Partitioner
