import Vtm.Common.MotionInfo
import Vtm.Std.Recency

/-!
# The motion history is a list of the most recent motions

Each table holds the last uses of the most recent motions of its whole history, whatever was saved:
`motionLut_recent`.
-/

namespace Vtm.Motion

open RefPics (RefPicList)
open Vtm.Std (recent Distinct)

theorem MotionInfo.same_iff (mi other : MotionInfo) :
    mi.same other = true ↔ mi.isInter = other.isInter ∧ mi.isIBCmot = other.isIBCmot ∧
      (mi.isInter = true → mi.sliceIdx = other.sliceIdx ∧ mi.interDir = other.interDir ∧
        (mi.interDir ≠ 2 → mi.refIdx .REF_PIC_LIST_0 = other.refIdx .REF_PIC_LIST_0 ∧
          mi.mv .REF_PIC_LIST_0 = other.mv .REF_PIC_LIST_0) ∧
        (mi.interDir ≠ 1 → mi.refIdx .REF_PIC_LIST_1 = other.refIdx .REF_PIC_LIST_1 ∧
          mi.mv .REF_PIC_LIST_1 = other.mv .REF_PIC_LIST_1)) := by
  unfold MotionInfo.same
  simp only [decide_eq_true_eq]

/-- The fields that are compared are the same ones on both sides. -/
theorem MotionInfo.same_equivalence : Equivalence fun mi other : MotionInfo => mi.same other = true where
  refl mi := by
    rw [same_iff]
    exact ⟨rfl, rfl, fun _ => ⟨rfl, rfl, fun _ => ⟨rfl, rfl⟩, fun _ => ⟨rfl, rfl⟩⟩⟩
  symm {mi other} equal := by
    rw [same_iff] at equal ⊢
    obtain ⟨inter, ibc, fields⟩ := equal
    refine ⟨inter.symm, ibc.symm, fun isInter => ?_⟩
    obtain ⟨slice, dir, list0, list1⟩ := fields (inter.trans isInter)
    rw [dir] at list0 list1
    exact ⟨slice.symm, dir.symm, fun used => ⟨(list0 used).1.symm, (list0 used).2.symm⟩,
      fun used => ⟨(list1 used).1.symm, (list1 used).2.symm⟩⟩
  trans {mi other third} first second := by
    rw [same_iff] at first second ⊢
    obtain ⟨inter, ibc, fields⟩ := first
    obtain ⟨inter', ibc', fields'⟩ := second
    refine ⟨inter.trans inter', ibc.trans ibc', fun isInter => ?_⟩
    obtain ⟨slice, dir, list0, list1⟩ := fields isInter
    obtain ⟨slice', dir', list0', list1'⟩ := fields' (inter ▸ isInter)
    rw [← dir] at list0' list1'
    exact ⟨slice.trans slice', dir.trans dir',
      fun used => ⟨(list0 used).1.trans (list0' used).1, (list0 used).2.trans (list0' used).2⟩,
      fun used => ⟨(list1 used).1.trans (list1' used).1, (list1 used).2.trans (list1' used).2⟩⟩

theorem addMiToLut_recent (history : List MotionInfo) (mi : MotionInfo) :
    addMiToLut (recent MotionInfo.same MAX_NUM_HMVP_CANDS history) mi =
      recent MotionInfo.same MAX_NUM_HMVP_CANDS (history ++ [mi]) := by
  unfold addMiToLut
  dsimp only
  cases found : (recent MotionInfo.same MAX_NUM_HMVP_CANDS history).findIdx? fun other =>
      other.same mi with
  | some i =>
      rw [Std.recent_concat_of_found MotionInfo.same_equivalence _ history found,
        if_pos (Or.inl Option.isSome_some), Option.getD_some]
  | none =>
      have room : 0 < MAX_NUM_HMVP_CANDS := by decide
      rw [Std.recent_concat_of_not_found room history found]
      simp only [Option.isSome_none, Bool.false_eq_true, false_or, Option.getD_none]

theorem foldl_addMiToLut (history : List MotionInfo) :
    history.foldl addMiToLut [] = recent MotionInfo.same MAX_NUM_HMVP_CANDS history := by
  induction history using List.reverseRecOn with
  | nil => rfl
  | append_singleton history mi ih =>
      rw [List.foldl_append, List.foldl_cons, List.foldl_nil, ih, addMiToLut_recent]

/-- The motions that are saved in one of the tables. -/
def savedMotions (ibc : Bool) (units : List SavedUnit) : List MotionInfo :=
  (units.filter fun cu => cu.isSaved && cu.isIBC == ibc).map SavedUnit.motion

/-- Each table sees the units of its own kind only. -/
theorem foldl_saveMotionInHMVP (units : List SavedUnit) (motionLut : LutMotionCand) :
    units.foldl saveMotionInHMVP motionLut =
      ⟨(savedMotions false units).foldl addMiToLut motionLut.lut,
        (savedMotions true units).foldl addMiToLut motionLut.lutIbc⟩ := by
  induction units generalizing motionLut with
  | nil => rfl
  | cons cu units ih =>
      rw [List.foldl_cons, ih]
      unfold savedMotions saveMotionInHMVP
      cases saved : cu.isSaved <;> cases kind : cu.isIBC <;> simp [saved, kind]

/-- A table of the most recent motions of a history. -/
structure RecentMotions (history lut : List MotionInfo) : Prop where
  bounded : lut.length ≤ MAX_NUM_HMVP_CANDS
  distinct : Distinct MotionInfo.same lut
  latest : lut = recent MotionInfo.same MAX_NUM_HMVP_CANDS history

/-- Both tables are lists of the most recent motions, over every sequence of insertions and of
units. -/
theorem motionLut_recent :
    (∀ history, RecentMotions history (history.foldl addMiToLut [])) ∧
      ∀ units, RecentMotions (savedMotions false units) (units.foldl saveMotionInHMVP ⟨[], []⟩).lut ∧
        RecentMotions (savedMotions true units) (units.foldl saveMotionInHMVP ⟨[], []⟩).lutIbc := by
  have table (history : List MotionInfo) : RecentMotions history (history.foldl addMiToLut []) := by
    rw [foldl_addMiToLut]
    exact ⟨Std.recent_length_le _ _ history, Std.recent_distinct _ _ history, rfl⟩
  refine ⟨table, fun units => ?_⟩
  rw [foldl_saveMotionInHMVP]
  exact ⟨table _, table _⟩

end Vtm.Motion
