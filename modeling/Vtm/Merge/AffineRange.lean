import Vtm.Common.AffineMerge
import Vtm.Merge.InterCandidates
import Vtm.Std.CheckedArray

/-!
# The arithmetic of affine motion

With control points of 18 bits, no operation on affine motion overflows, and the vectors of all
candidates and sub-blocks are of 18 bits again: `affineMotion_inRange`.
-/

namespace Vtm.Motion

open RefPics (RefPicList)
open ChromaQpMappingTableParams (Clip3)
open Vtm.Std

/-- A motion vector of 18 bits. -/
@[grind =] def Mv.InRange (mv : Mv) : Prop :=
  (-2 ^ 17 ≤ mv.hor ∧ mv.hor ≤ 2 ^ 17 - 1) ∧ (-2 ^ 17 ≤ mv.ver ∧ mv.ver ≤ 2 ^ 17 - 1)

/-- The side of an affine block. -/
structure IsSide (size : Int) (log2 : Nat) : Prop where
  low : 3 ≤ log2
  high : log2 ≤ 7
  power : size = 2 ^ log2

theorem zero_inRange : Mv.zero.InRange := by
  unfold Mv.InRange Mv.zero
  decide

theorem clip_inRange (mv : Mv) : mv.clipToStorageBitDepth.InRange := by
  unfold Mv.clipToStorageBitDepth Mv.InRange Clip3
  dsimp only
  omega

theorem Mv.InRange.abs_hor {mv : Mv} (range : mv.InRange) : |mv.hor| ≤ 2 ^ 17 := by
  obtain ⟨⟨low, high⟩, -⟩ := range
  exact abs_le.mpr ⟨low, by omega⟩

theorem Mv.InRange.abs_ver {mv : Mv} (range : mv.InRange) : |mv.ver| ≤ 2 ^ 17 := by
  obtain ⟨-, low, high⟩ := range
  exact abs_le.mpr ⟨low, by omega⟩

theorem floorLog2_of_side {size : Int} {log2 : Nat} (side : IsSide size log2) :
    floorLog2 size = log2 := by
  have nat : size.toNat = 2 ^ log2 := by
    rw [side.power]
    exact_mod_cast Int.toNat_natCast (2 ^ log2)
  unfold floorLog2
  rw [nat, Nat.log2_two_pow]

/-! ## One vector of a model -/

theorem roundAffine32_succeeds {v bound : Int} (small : |v| ≤ bound) (fits : bound + 2 ^ 7 < 2 ^ 31) :
    Succeeds (roundAffine32 v MAX_CU_DEPTH) fun _ => True := by
  have offset : Succeeds (shl32 1 (MAX_CU_DEPTH - 1)) (· = 2 ^ 6) := ⟨2 ^ 6, by decide, rfl⟩
  unfold roundAffine32
  refine offset.bind fun nOffset same => ?_
  subst same
  have first : |v + 2 ^ 6| ≤ bound + 2 ^ 6 := abs_add_le_add small (by decide)
  refine (int32_bounded first (by omega)).bind fun v' step => ?_
  rw [step.1]
  have one : |if 0 ≤ v then (1 : Int) else 0| ≤ 1 := by split <;> decide
  refine (int32_bounded (abs_sub_le_add first one) (by omega)).bind fun _ _ => ?_
  exact Succeeds.pure trivial

theorem scaledDelta_succeeds {v v' size : Int} {log2 : Nat} (side : IsSide size log2)
    (small : |v| ≤ 2 ^ 17) (small' : |v'| ≤ 2 ^ 17) :
    Succeeds (scaledDelta v v' size) fun d => |d| ≤ 2 ^ (25 - log2) := by
  have low := side.low
  have high := side.high
  unfold scaledDelta shiftedDelta
  refine (int32_bounded (abs_sub_le_add small small') (by decide)).bind fun d step => ?_
  rw [floorLog2_of_side side]
  have scaled : |d * 2 ^ (MAX_CU_DEPTH - log2)| ≤ 2 ^ (25 - log2) := by
    have power : (2 : Int) ^ (25 - log2) = (2 ^ 17 + 2 ^ 17) * 2 ^ (MAX_CU_DEPTH - log2) := by
      have exponent : 25 - log2 = 18 + (MAX_CU_DEPTH - log2) := by
        unfold MAX_CU_DEPTH
        omega
      rw [exponent, pow_add]
      norm_num
    rw [power]
    exact abs_mul_le_mul step.2 (le_of_eq (abs_of_nonneg (by positivity)))
  have bound : (2 : Int) ^ (25 - log2) < 2 ^ 31 := pow_lt_pow_right₀ (by decide) (by omega)
  exact (int32_bounded scaled bound).weaken fun _ step => step.2

/-- The differences of a model, by the sides that they are scaled with. -/
structure DeltasBounded (H V : Int) (deltas : AffineDeltas) : Prop where
  scaleHor : |deltas.scaleHor| ≤ 2 ^ 24
  scaleVer : |deltas.scaleVer| ≤ 2 ^ 24
  horX : |deltas.horX| ≤ H
  horY : |deltas.horY| ≤ H
  verX : |deltas.verX| ≤ V
  verY : |deltas.verY| ≤ V

theorem shl_first {v : Int} (small : |v| ≤ 2 ^ 17) :
    Succeeds (shl32 v MAX_CU_DEPTH) fun r => |r| ≤ 2 ^ 24 := by
  have scaled : |v * 2 ^ MAX_CU_DEPTH| ≤ 2 ^ 17 * 2 ^ 7 := abs_mul_le_mul small (by decide)
  exact (int32_bounded scaled (by decide)).weaken fun _ step => le_trans step.2 (by decide)

theorem verticalDeltas_succeeds {lt : Mv} {lb : Option Mv} {horX horY height : Int} {k m : Nat}
    (low : 3 ≤ k) (sideH : IsSide height m) (ltRange : lt.InRange)
    (lbRange : ∀ mv, lb = some mv → mv.InRange) (boundX : |horX| ≤ 2 ^ (25 - k))
    (boundY : |horY| ≤ 2 ^ (25 - k)) :
    Succeeds (verticalDeltas lt lb horX horY height) fun ver =>
      |ver.1| ≤ 2 ^ (25 - if lb.isSome then m else k) ∧
        |ver.2| ≤ 2 ^ (25 - if lb.isSome then m else k) := by
  unfold verticalDeltas
  cases lb with
  | some mv =>
      have range := lbRange mv rfl
      refine (scaledDelta_succeeds sideH range.abs_hor ltRange.abs_hor).bind fun verX boundV => ?_
      refine (scaledDelta_succeeds sideH range.abs_ver ltRange.abs_ver).bind fun verY boundV' => ?_
      exact Succeeds.pure ⟨boundV, boundV'⟩
  | none =>
      have fits : (2 : Int) ^ (25 - k) < 2 ^ 31 := pow_lt_pow_right₀ (by decide) (by omega)
      have negated : |-horY| ≤ 2 ^ (25 - k) := (abs_neg horY).le.trans boundY
      refine (int32_bounded negated fits).bind fun verX step => ?_
      exact Succeeds.pure ⟨step.2, boundX⟩

theorem affineDeltas_succeeds {lt rt : Mv} {lb : Option Mv} {width height : Int} {k m : Nat}
    (sideW : IsSide width k) (sideH : IsSide height m) (ltRange : lt.InRange) (rtRange : rt.InRange)
    (lbRange : ∀ mv, lb = some mv → mv.InRange) :
    Succeeds (affineDeltas lt rt lb width height)
      (DeltasBounded (2 ^ (25 - k)) (2 ^ (25 - if lb.isSome then m else k))) := by
  unfold affineDeltas
  refine (scaledDelta_succeeds sideW rtRange.abs_hor ltRange.abs_hor).bind fun horX boundX => ?_
  refine (scaledDelta_succeeds sideW rtRange.abs_ver ltRange.abs_ver).bind fun horY boundY => ?_
  refine (verticalDeltas_succeeds sideW.low sideH ltRange lbRange boundX boundY).bind
    fun ver boundV => ?_
  refine (shl_first ltRange.abs_hor).bind fun scaleHor boundS => ?_
  refine (shl_first ltRange.abs_ver).bind fun scaleVer boundS' => ?_
  exact Succeeds.pure ⟨boundS, boundS', boundX, boundY, boundV.1, boundV.2⟩

theorem component_succeeds {scale hor ver dx dy H V X Y : Int} (first : |scale| ≤ 2 ^ 24)
    (horSmall : |hor| ≤ H) (verSmall : |ver| ≤ V) (dxSmall : |dx| ≤ X) (dySmall : |dy| ≤ Y)
    (fits : H * X + V * Y + 2 ^ 25 < 2 ^ 31) :
    Succeeds (AffineDeltas.component scale hor ver dx dy) fun r => |r| ≤ 2 ^ 24 + H * X + V * Y := by
  have product := abs_mul_le_mul horSmall dxSmall
  have product' := abs_mul_le_mul verSmall dySmall
  have nonneg := le_trans (abs_nonneg _) product
  have nonneg' := le_trans (abs_nonneg _) product'
  unfold AffineDeltas.component
  refine (int32_bounded product (by omega)).bind fun h step => ?_
  refine (int32_bounded (abs_add_le_add first step.2) (by omega)).bind fun s sum => ?_
  refine (int32_bounded product' (by omega)).bind fun v step' => ?_
  exact (int32_bounded (abs_add_le_add sum.2 step'.2) (by omega)).weaken fun _ total => total.2

theorem mvAt_succeeds {deltas : AffineDeltas} {dx dy H V X Y : Int}
    (bounded : DeltasBounded H V deltas) (dxSmall : |dx| ≤ X) (dySmall : |dy| ≤ Y)
    (fits : H * X + V * Y + 2 ^ 25 < 2 ^ 31) : Succeeds (deltas.mvAt dx dy) Mv.InRange := by
  unfold AffineDeltas.mvAt
  refine (component_succeeds bounded.scaleHor bounded.horX bounded.verX dxSmall dySmall fits).bind
    fun horTmp small => ?_
  refine (component_succeeds bounded.scaleVer bounded.horY bounded.verY dxSmall dySmall fits).bind
    fun verTmp small' => ?_
  refine (roundAffine32_succeeds small (by omega)).bind fun hor _ => ?_
  refine (roundAffine32_succeeds small' (by omega)).bind fun ver _ => ?_
  exact Succeeds.pure (clip_inRange _)

/-! ## Inherited candidates -/

/-- A block at a position. -/
def Area.Contains (area : Area) (pos : Position) : Prop :=
  (area.x ≤ pos.x ∧ pos.x < area.x + area.width) ∧ (area.y ≤ pos.y ∧ pos.y < area.y + area.height)

/-- A neighbour that candidates are inherited from. -/
def IsNeighbour (pu other : PredictionUnit) : Prop :=
  ∃ pos ∈ [posA0 pu, posA1 pu, posB0 pu, posB1 pu, posB2 pu], other.Y.Contains pos

/-- The vectors that the model of a unit uses, and those that are stored for its sub-blocks. -/
structure ValidModel (pu : PredictionUnit) (X : RefPicList) : Prop where
  control : ∀ n < 2, (pu.mvAffi X n).InRange
  third : pu.cu.affineType = .AFFINEMODEL_6PARAM → (pu.mvAffi X 2).InRange
  stored : ∀ pos, ((pu.getMotionInfo pos).mv X).InRange

theorem IsNeighbour.near {pu other : PredictionUnit} (near : IsNeighbour pu other)
    (width : 0 < pu.Y.width) (height : 0 < pu.Y.height) :
    (-pu.Y.width ≤ pu.Y.x - other.Y.x ∧ pu.Y.x - other.Y.x ≤ other.Y.width) ∧
      (-pu.Y.height ≤ pu.Y.y - other.Y.y ∧ pu.Y.y - other.Y.y ≤ other.Y.height) := by
  obtain ⟨pos, listed, ⟨left, right⟩, above, below⟩ := near
  have place : (pu.Y.x - 1 ≤ pos.x ∧ pos.x ≤ pu.Y.x + pu.Y.width) ∧
      (pu.Y.y - 1 ≤ pos.y ∧ pos.y ≤ pu.Y.y + pu.Y.height) := by
    simp only [List.mem_cons, List.not_mem_nil, or_false] at listed
    rcases listed with rfl | rfl | rfl | rfl | rfl <;>
      simp only [posA0, posA1, posB0, posB1, posB2, Position.offset, Area.topLeft, Area.topRight,
        Area.bottomLeft] <;> omega
  omega

/-- A difference times an offset across two blocks. -/
theorem pow_mul_sides_le {k c : Nat} (low : 3 ≤ k) (high : k ≤ 7) (high' : c ≤ 7) :
    (2 : Int) ^ (25 - k) * (2 ^ k + 2 ^ c) ≤ 2 ^ 25 + 2 ^ 29 := by
  have own : (2 : Int) ^ (25 - k) * 2 ^ k = 2 ^ 25 := by
    rw [← pow_add]
    congr 1
    omega
  have other : (2 : Int) ^ (25 - k) * 2 ^ c ≤ 2 ^ 29 := by
    rw [← pow_add]
    exact pow_le_pow_right₀ (by decide) (by omega)
  rw [mul_add, own]
  omega

theorem side_le {k : Nat} (high : k ≤ 7) : (2 : Int) ^ k ≤ 2 ^ 7 :=
  pow_le_pow_right₀ (by decide) high

/-- A difference that is scaled with the other side. -/
theorem pow_mul_sides_le' {k m c : Nat} (low : 3 ≤ k) (high : m ≤ 7) (high' : c ≤ 7) :
    (2 : Int) ^ (25 - k) * (2 ^ m + 2 ^ c) ≤ 2 ^ 30 := by
  have delta : (2 : Int) ^ (25 - k) ≤ 2 ^ 22 := pow_le_pow_right₀ (by decide) (by omega)
  have sides : (2 : Int) ^ m + 2 ^ c ≤ 2 ^ 8 := by
    have first := side_le high
    have second := side_le high'
    omega
  calc (2 : Int) ^ (25 - k) * (2 ^ m + 2 ^ c) ≤ 2 ^ 22 * 2 ^ 8 :=
        mul_le_mul delta sides (by positivity) (by decide)
    _ = 2 ^ 30 := by norm_num

theorem xInheritedAffineMv_inRange {slice : Slice} {pu puNeighbour : PredictionUnit} {X : RefPicList}
    {k m c e : Nat} (neighbourW : IsSide puNeighbour.Y.width k) (neighbourH : IsSide puNeighbour.Y.height m)
    (width : IsSide pu.Y.width c) (height : IsSide pu.Y.height e) (near : IsNeighbour pu puNeighbour)
    (valid : ValidModel puNeighbour X) :
    Succeeds (xInheritedAffineMv slice pu puNeighbour X) fun rcMv => ∀ n, (rcMv n).InRange := by
  have positive (n : Nat) : (0 : Int) < 2 ^ n := by positivity
  have power := neighbourW.power
  have power' := neighbourH.power
  have own := width.power
  have own' := height.power
  obtain ⟨⟨left, right⟩, above, below⟩ := near.near (own ▸ positive c) (own' ▸ positive e)
  unfold xInheritedAffineMv
  dsimp only
  set boundary := isTopCtuBoundary slice pu puNeighbour with boundary_eq
  set lb := if puNeighbour.cu.affineType = .AFFINEMODEL_6PARAM ∧ ¬ boundary then
    some (puNeighbour.mvAffi X 2) else none with lb_eq
  have first : (if boundary then (puNeighbour.getMotionInfo puNeighbour.Y.bottomLeft).mv X
      else puNeighbour.mvAffi X 0).InRange := by
    split
    · exact valid.stored _
    · exact valid.control 0 (by decide)
  have second : (if boundary then (puNeighbour.getMotionInfo puNeighbour.Y.bottomRight).mv X
      else puNeighbour.mvAffi X 1).InRange := by
    split
    · exact valid.stored _
    · exact valid.control 1 (by decide)
  have third : ∀ mv, lb = some mv → mv.InRange := by
    intro mv some
    rw [lb_eq] at some
    obtain ⟨sixParam, same⟩ := Option.ite_none_right_eq_some.mp some
    exact Option.some.inj same ▸ valid.third sixParam.1
  set posNeiY := if boundary then puNeighbour.Y.y + puNeighbour.Y.height else puNeighbour.Y.y
    with posNeiY_eq
  have distance : -pu.Y.height ≤ pu.Y.y - posNeiY ∧ pu.Y.y - posNeiY ≤ puNeighbour.Y.height := by
    rw [posNeiY_eq]
    split
    · -- at the border the neighbour ends where the unit begins
      rename_i top
      have meets : puNeighbour.Y.y + puNeighbour.Y.height = pu.Y.y := (of_decide_eq_true top).2
      have tall := positive m
      have tall' := positive e
      omega
    · exact ⟨above, below⟩
  have fits : (2 : Int) ^ (25 - k) * (2 ^ k + 2 ^ c) +
      2 ^ (25 - if lb.isSome then m else k) * (2 ^ m + 2 ^ e) + 2 ^ 25 < 2 ^ 31 := by
    have hor := pow_mul_sides_le neighbourW.low neighbourW.high width.high
    have ver : (2 : Int) ^ (25 - if lb.isSome then m else k) * (2 ^ m + 2 ^ e) ≤ 2 ^ 30 := by
      split
      · exact le_trans (pow_mul_sides_le neighbourH.low neighbourH.high height.high) (by decide)
      · exact pow_mul_sides_le' neighbourW.low neighbourH.high height.high
    omega
  have wide := positive k
  have wide' := positive c
  have tall := positive m
  have tall' := positive e
  refine (affineDeltas_succeeds neighbourW neighbourH first second third).bind fun deltas bounded => ?_
  have offset (dx dy : Int) (near : |dx| ≤ 2 ^ k + 2 ^ c) (near' : |dy| ≤ 2 ^ m + 2 ^ e) :
      Succeeds (deltas.mvAt dx dy) Mv.InRange := mvAt_succeeds bounded near near' fits
  refine (offset (pu.Y.x - puNeighbour.Y.x) (pu.Y.y - posNeiY)
    (abs_le.mpr ⟨by omega, by omega⟩) (abs_le.mpr ⟨by omega, by omega⟩)).bind fun v0 range0 => ?_
  refine (offset (pu.Y.x + pu.Y.width - puNeighbour.Y.x) (pu.Y.y - posNeiY)
    (abs_le.mpr ⟨by omega, by omega⟩) (abs_le.mpr ⟨by omega, by omega⟩)).bind fun v1 range1 => ?_
  have vectors {v2 : Mv} (range2 : v2.InRange) (n : Nat) :
      (if n = 0 then v0 else if n = 1 then v1 else if n = 2 then v2 else Mv.zero).InRange := by
    split
    · exact range0
    · split
      · exact range1
      · split
        · exact range2
        · exact zero_inRange
  split
  · refine (offset (pu.Y.x - puNeighbour.Y.x) (pu.Y.y + pu.Y.height - posNeiY)
      (abs_le.mpr ⟨by omega, by omega⟩) (abs_le.mpr ⟨by omega, by omega⟩)).bind fun v2 range2 => ?_
    exact Succeeds.pure (vectors range2)
  · exact Succeeds.pure (vectors zero_inRange)

/-! ## Constructed candidates -/

theorem parallelogram_succeeds {a b c : Mv} (rangeA : a.InRange) (rangeB : b.InRange)
    (rangeC : c.InRange) : Succeeds (parallelogram a b c) Mv.InRange := by
  unfold parallelogram
  refine (int32_bounded (abs_add_le_add rangeA.abs_hor rangeB.abs_hor) (by decide)).bind
    fun hor step => ?_
  refine (int32_bounded (abs_sub_le_add step.2 rangeC.abs_hor) (by decide)).bind fun _ _ => ?_
  refine (int32_bounded (abs_add_le_add rangeA.abs_ver rangeB.abs_ver) (by decide)).bind
    fun ver step' => ?_
  refine (int32_bounded (abs_sub_le_add step'.2 rangeC.abs_ver) (by decide)).bind fun _ _ => ?_
  exact Succeeds.pure (clip_inRange _)

theorem update_inRange {cMv : Nat → Mv} (range : ∀ n, (cMv n).InRange) {mv : Mv} (new : mv.InRange)
    (k n : Nat) : (Function.update cMv k mv n).InRange := by
  by_cases here : n = k
  · rw [here, Function.update_self]
    exact new
  · rw [Function.update_of_ne here]
    exact range n

/-- A difference that is scaled with both sides. -/
theorem scaled_succeeds {v v' : Int} {k m : Nat} (low : 3 ≤ m) (high : m ≤ 7) (high' : k ≤ 7)
    (small : |v| ≤ 2 ^ 17) (small' : |v'| ≤ 2 ^ 17) :
    Succeeds (shiftedDelta v v' (MAX_CU_DEPTH + k - m)) fun d => |d| ≤ 2 ^ 29 := by
  unfold shiftedDelta
  refine (int32_bounded (abs_sub_le_add small small') (by decide)).bind fun d step => ?_
  have shift : |(2 : Int) ^ (MAX_CU_DEPTH + k - m)| ≤ 2 ^ 11 := by
    rw [abs_of_nonneg (by positivity)]
    refine pow_le_pow_right₀ (by decide) ?_
    unfold MAX_CU_DEPTH
    omega
  have scaled := abs_mul_le_mul step.2 shift
  exact (int32_bounded scaled (by decide)).weaken fun _ total => le_trans total.2 (by decide)

theorem convertModel_succeeds {width height : Int} {k m : Nat} (sideW : IsSide width k)
    (sideH : IsSide height m) {modelIdx : Nat} (known : modelIdx < 6) {cMv : Nat → Mv}
    (range : ∀ n, (cMv n).InRange) :
    Succeeds (convertModel width height modelIdx cMv) fun after => ∀ n, (after n).InRange := by
  obtain rfl | rfl | rfl | rfl | rfl | rfl : modelIdx = 0 ∨ modelIdx = 1 ∨ modelIdx = 2 ∨
      modelIdx = 3 ∨ modelIdx = 4 ∨ modelIdx = 5 := by omega
  · exact Succeeds.pure range
  · refine (parallelogram_succeeds (range 3) (range 0) (range 1)).bind fun mv new => ?_
    exact Succeeds.pure (update_inRange range new 2)
  · refine (parallelogram_succeeds (range 3) (range 0) (range 2)).bind fun mv new => ?_
    exact Succeeds.pure (update_inRange range new 1)
  · refine (parallelogram_succeeds (range 1) (range 2) (range 3)).bind fun mv new => ?_
    exact Succeeds.pure (update_inRange range new 0)
  · exact Succeeds.pure range
  · unfold convertModel
    dsimp only
    rw [floorLog2_of_side sideW, floorLog2_of_side sideH]
    have sides (v v' : Int) (small : |v| ≤ 2 ^ 17) (small' : |v'| ≤ 2 ^ 17) :
        Succeeds (shiftedDelta v v' (MAX_CU_DEPTH + k - m)) fun d => |d| ≤ 2 ^ 29 :=
      scaled_succeeds sideH.low sideH.high sideW.high small small'
    refine (shl_first (range 0).abs_hor).bind fun hor first => ?_
    refine (sides _ _ (range 2).abs_ver (range 0).abs_ver).bind fun dVer delta => ?_
    refine (int32_bounded (abs_add_le_add first delta) (by decide)).bind fun vx sum => ?_
    refine (shl_first (range 0).abs_ver).bind fun ver first' => ?_
    refine (sides _ _ (range 2).abs_hor (range 0).abs_hor).bind fun dHor delta' => ?_
    refine (int32_bounded (abs_sub_le_add first' delta') (by decide)).bind fun vy sum' => ?_
    refine (roundAffine32_succeeds sum.2 (by decide)).bind fun _ _ => ?_
    refine (roundAffine32_succeeds sum'.2 (by decide)).bind fun _ _ => ?_
    exact Succeeds.pure (update_inRange range (clip_inRange _) 1)

theorem constructedMv_succeeds {pu : PredictionUnit} {k m : Nat} (sideW : IsSide pu.Y.width k)
    (sideH : IsSide pu.Y.height m) {mi : Nat → Option MotionInfo} {modelIdx : Nat}
    (known : modelIdx < 6) (X : RefPicList) (valid : ∀ n motion, mi n = some motion → (motion.mv X).InRange) :
    Succeeds (constructedMv pu mi modelIdx X) fun after => ∀ n, (after n).InRange := by
  unfold constructedMv
  split
  · refine convertModel_succeeds sideW sideH known fun n => ?_
    split
    · cases here : mi n with
      | none => exact zero_inRange
      | some motion => exact valid n motion here
    · exact zero_inRange
  · exact Succeeds.pure fun _ => zero_inRange

theorem getAffineControlPointCand_inRange {pu : PredictionUnit} {k m : Nat}
    (sideW : IsSide pu.Y.width k) (sideH : IsSide pu.Y.height m) {mi : Nat → Option MotionInfo}
    (gbiIdx : Nat) {modelIdx : Nat} (known : modelIdx < 6)
    (valid : ∀ n motion, mi n = some motion → ∀ X, (motion.mv X).InRange) (cand : AffineMergeCand) :
    Succeeds (getAffineControlPointCand pu mi gbiIdx modelIdx cand) fun result =>
      ∀ made, result = some made → ∀ X, ∀ n < 3, (made.mvFieldNeighbours X n).mv.InRange := by
  unfold getAffineControlPointCand
  dsimp only
  refine Succeeds.ite (fun _ => ?_) fun _ => ?_
  · refine Succeeds.pure fun made none => ?_
    cases none
  · refine (constructedMv_succeeds sideW sideH known .REF_PIC_LIST_0
      fun n motion here => valid n motion here _).bind fun cMv0 range0 => ?_
    refine (constructedMv_succeeds sideW sideH known .REF_PIC_LIST_1
      fun n motion here => valid n motion here _).bind fun cMv1 range1 => ?_
    refine Succeeds.pure fun made same X n inside => ?_
    rw [← Option.some.inj same]
    dsimp only
    rw [if_pos inside]
    cases X with
    | REF_PIC_LIST_0 => exact range0 n
    | REF_PIC_LIST_1 => exact range1 n

/-! ## Sub-blocks -/

theorem clipToPeriod_succeeds {v : Int} (small : |v| ≤ 2 ^ 17) :
    Succeeds (clipToPeriod v) fun r => -2 ^ 17 ≤ r ∧ r ≤ 2 ^ 17 - 1 := by
  unfold clipToPeriod
  have sum : |v + 2 ^ 18| ≤ 2 ^ 17 + 2 ^ 18 := abs_add_le_add small (by decide)
  refine (int32_bounded sum (by decide)).bind fun v' step => Succeeds.pure ?_
  split <;> omega

theorem mvCliptoStorageBitDepth_succeeds {mv : Mv} (range : mv.InRange) :
    Succeeds mv.mvCliptoStorageBitDepth Mv.InRange := by
  unfold Mv.mvCliptoStorageBitDepth
  refine (clipToPeriod_succeeds range.abs_hor).bind fun hor rangeH => ?_
  refine (clipToPeriod_succeeds range.abs_ver).bind fun ver rangeV => ?_
  exact Succeeds.pure ⟨rangeH, rangeV⟩

/-- The control points that a model uses. -/
structure ValidPoints (pu : PredictionUnit) (lt rt lb : Mv) : Prop where
  lt : lt.InRange
  rt : rt.InRange
  lb : pu.cu.affineType = .AFFINEMODEL_6PARAM → lb.InRange

theorem clipControlPoints_succeeds {pu : PredictionUnit} {lt rt lb : Mv} (clipCPMVs : Bool)
    (valid : ValidPoints pu lt rt lb) :
    Succeeds (clipControlPoints pu clipCPMVs lt rt lb) fun points =>
      ValidPoints pu points.1 points.2.1 points.2.2 := by
  unfold clipControlPoints
  split
  · refine (mvCliptoStorageBitDepth_succeeds valid.lt).bind fun lt' rangeLT => ?_
    refine (mvCliptoStorageBitDepth_succeeds valid.rt).bind fun rt' rangeRT => ?_
    split
    · rename_i sixParam
      refine (mvCliptoStorageBitDepth_succeeds (valid.lb sixParam)).bind fun lb' rangeLB => ?_
      exact Succeeds.pure ⟨rangeLT, rangeRT, fun _ => rangeLB⟩
    · rename_i fourParam
      exact Succeeds.pure ⟨rangeLT, rangeRT, fun sixParam => absurd sixParam fourParam⟩
  · exact Succeeds.pure valid

theorem refBlkArea_succeeds {width height : Int} (low : 0 ≤ width) (high : width ≤ 2 ^ 26)
    (low' : 0 ≤ height) (high' : height ≤ 2 ^ 26) : Succeeds (refBlkArea width height) fun _ => True := by
  have side {x : Int} (nonneg : 0 ≤ x) (small : x ≤ 2 ^ 26) : |x >>> (11 : Nat) + 6 + 3| ≤ 2 ^ 15 + 9 := by
    rw [Int.shiftRight_eq_div_pow]
    refine abs_le.mpr ⟨?_, ?_⟩ <;> omega
  unfold refBlkArea
  exact (int32_bounded (abs_mul_le_mul (side low high) (side low' high')) (by decide)).weaken
    fun _ _ => trivial

/-- The test fits for all differences of valid vectors. -/
theorem isSubblockVectorSpreadOverLimit_succeeds {a b c d : Int} (smallA : |a| ≤ 2 ^ 22)
    (smallB : |b| ≤ 2 ^ 22) (smallC : |c| ≤ 2 ^ 22) (smallD : |d| ≤ 2 ^ 22) (predType : Nat) :
    Succeeds (isSubblockVectorSpreadOverLimit a b c d predType) fun _ => True := by
  have four {x : Int} (small : |x| ≤ 2 ^ 22) : Succeeds (mul32 4 x) fun r => |r| ≤ 2 ^ 24 :=
    (int32_bounded (abs_mul_le_mul (by decide : |(4 : Int)| ≤ 4) small) (by decide)).weaken
      fun _ step => le_trans step.2 (by decide)
  have plus {x y bound bound' : Int} (small : |x| ≤ bound) (small' : |y| ≤ bound')
      (fits : bound + bound' < 2 ^ 31) : Succeeds (add32 x y) fun r => r = x + y ∧ |r| ≤ bound + bound' :=
    int32_bounded (abs_add_le_add small small') fits
  have spread {x y : Int} (nonneg : 0 ≤ x - y) (small : x - y ≤ 2 ^ 26) :
      Succeeds (sub32 x y) fun r => 0 ≤ r ∧ r ≤ 2 ^ 26 :=
    ⟨x - y, int32_eq ⟨by omega, by omega⟩, nonneg, small⟩
  have s4 : |(4 * 2 ^ 11 : Int)| ≤ 2 ^ 13 := by decide
  unfold isSubblockVectorSpreadOverLimit
  refine (four smallA).bind fun a4 a4Small => ?_
  refine (four smallB).bind fun b4 b4Small => ?_
  refine (four smallC).bind fun c4 c4Small => ?_
  refine (four smallD).bind fun d4 d4Small => ?_
  refine (plus a4Small s4 (by decide)).bind fun aS aSSum => ?_
  refine (plus d4Small s4 (by decide)).bind fun dS dSSum => ?_
  have a4Range := abs_le.mp a4Small
  have b4Range := abs_le.mp b4Small
  have c4Range := abs_le.mp c4Small
  have d4Range := abs_le.mp d4Small
  have aSValue := aSSum.1
  have dSValue := dSSum.1
  refine Succeeds.ite (fun _ => ?_) fun _ => ?_
  · refine (plus a4Small c4Small (by decide)).bind fun ac acSum => ?_
    refine (plus acSum.2 s4 (by decide)).bind fun acS acSSum => ?_
    refine (plus b4Small d4Small (by decide)).bind fun bd bdSum => ?_
    refine (plus bdSum.2 s4 (by decide)).bind fun bdS bdSSum => ?_
    have acValue := acSum.1
    have acSValue := acSSum.1
    have bdValue := bdSum.1
    have bdSValue := bdSSum.1
    refine (spread (by omega) (by omega)).bind fun width rangeW => ?_
    refine (spread (by omega) (by omega)).bind fun height rangeH => ?_
    refine (refBlkArea_succeeds rangeW.1 rangeW.2 rangeH.1 rangeH.2).bind fun refBlk _ => ?_
    exact Succeeds.pure trivial
  · refine (spread (by omega) (by omega)).bind fun width rangeW => ?_
    refine (spread (by omega) (by omega)).bind fun height rangeH => ?_
    refine (refBlkArea_succeeds rangeW.1 rangeW.2 rangeH.1 rangeH.2).bind fun refBlk _ => ?_
    refine Succeeds.ite (fun _ => Succeeds.pure trivial) fun _ => ?_
    refine (spread (by omega) (by omega)).bind fun width rangeW => ?_
    refine (spread (by omega) (by omega)).bind fun height rangeH => ?_
    refine (refBlkArea_succeeds rangeW.1 rangeW.2 rangeH.1 rangeH.2).bind fun refBlk _ => ?_
    exact Succeeds.pure trivial

theorem subBlockMv_succeeds {deltas : AffineDeltas} {k m : Nat} {H V : Int} {width height : Int}
    (sideW : IsSide width k) (sideH : IsSide height m) (bounded : DeltasBounded H V deltas)
    (fits : H * 2 ^ k + V * 2 ^ m + 2 ^ 25 < 2 ^ 31) (overLimit : Bool) {w h : Nat}
    (insideW : w + 4 ≤ width) (insideH : h + 4 ≤ height) :
    Succeeds (subBlockMv deltas overLimit width height w h) Mv.InRange := by
  unfold subBlockMv
  have own := sideW.power
  have own' := sideH.power
  refine Succeeds.ite (fun _ => ?_) fun _ => ?_
  · refine mvAt_succeeds bounded ?_ ?_ fits
    · rw [Int.shiftRight_eq_div_pow]
      exact abs_le.mpr ⟨by omega, by omega⟩
    · rw [Int.shiftRight_eq_div_pow]
      exact abs_le.mpr ⟨by omega, by omega⟩
  · exact mvAt_succeeds bounded (abs_le.mpr ⟨by omega, by omega⟩) (abs_le.mpr ⟨by omega, by omega⟩)
      fits

/-- A unit of the motion buffer holds a vector of 18 bits. -/
theorem storeSubBlock_inRange {w h : Nat} {curMv : Mv} (range : curMv.InRange) {mb : Nat → Nat → Mv}
    {x y : Nat} (before : (mb x y).InRange) : (storeSubBlock w h curMv mb x y).InRange := by
  unfold storeSubBlock
  split
  · exact range
  · exact before

theorem storeSubBlock_own {w h : Nat} (curMv : Mv) (mb : Nat → Nat → Mv) {x y : Nat}
    (column : x ∈ motionUnits w) (row : y ∈ motionUnits h) : storeSubBlock w h curMv mb x y = curMv :=
  if_pos ⟨column, row⟩

theorem mem_subBlocks {size : Int} {k : Nat} (side : IsSide size k) {pos : Nat}
    (member : pos ∈ subBlocks size) : (pos : Int) + 4 ≤ size := by
  unfold subBlocks at member
  obtain ⟨i, inside, rfl⟩ := List.mem_map.mp member
  have count := List.mem_range.mp inside
  have low := side.low
  have high := side.high
  have power := side.power
  have multiple : (4 : Int) ∣ size := by
    rw [power]
    exact pow_dvd_pow 2 (by omega : 2 ≤ k)
  omega

/-- Every unit of the block belongs to a sub-block. -/
theorem exists_subBlock {size : Int} {x : Nat} (inside : (x : Int) < size / 4) :
    ∃ pos ∈ subBlocks size, x ∈ motionUnits pos := by
  refine ⟨4 * x, List.mem_map.mpr ⟨x, List.mem_range.mpr (by omega), rfl⟩, ?_⟩
  unfold motionUnits
  rw [List.mem_range'_1]
  omega

theorem subBlocks_inRange {pu : PredictionUnit} {deltas : AffineDeltas} {overLimit : Bool}
    (each : ∀ w ∈ subBlocks pu.Y.width, ∀ h ∈ subBlocks pu.Y.height,
      Succeeds (subBlockMv deltas overLimit pu.Y.width pu.Y.height w h) Mv.InRange)
    (mb : Nat → Nat → Mv) :
    Succeeds ((subBlocks pu.Y.height).foldlM (fun mb (h : Nat) =>
      (subBlocks pu.Y.width).foldlM (fun mb (w : Nat) => do
        let curMv ← subBlockMv deltas overLimit pu.Y.width pu.Y.height w h
        return storeSubBlock w h curMv mb) mb) mb) fun after =>
      ∀ h ∈ subBlocks pu.Y.height, ∀ w ∈ subBlocks pu.Y.width,
        ∀ x ∈ motionUnits w, ∀ y ∈ motionUnits h, (after x y).InRange := by
  have row (h : Nat) (member : h ∈ subBlocks pu.Y.height) (start : Nat → Nat → Mv) :=
    @foldlM_each (Nat → Nat → Mv) String Nat
      (fun mb (w : Nat) => do
        let curMv ← subBlockMv deltas overLimit pu.Y.width pu.Y.height w h
        return storeSubBlock w h curMv mb)
      (fun mb => ∀ x y, (start x y).InRange → (mb x y).InRange)
      (fun mb w => ∀ x ∈ motionUnits w, ∀ y ∈ motionUnits h, (mb x y).InRange)
      (subBlocks pu.Y.width)
      (fun w column mb kept => by
        obtain ⟨curMv, run, range⟩ := each w column h member
        refine ⟨storeSubBlock w h curMv mb, by rw [run]; rfl, fun x y before => ?_,
          fun x inX y inY => ?_, fun w' done x inX y inY => ?_⟩
        · exact storeSubBlock_inRange range (kept x y before)
        · rw [storeSubBlock_own curMv mb inX inY]
          exact range
        · exact storeSubBlock_inRange range (done x inX y inY))
      start fun _ _ before => before
  obtain ⟨after, run, -, done⟩ := @foldlM_each (Nat → Nat → Mv) String Nat
    (fun mb (h : Nat) => (subBlocks pu.Y.width).foldlM (fun mb (w : Nat) => do
      let curMv ← subBlockMv deltas overLimit pu.Y.width pu.Y.height w h
      return storeSubBlock w h curMv mb) mb)
    (fun _ => True)
    (fun mb h => ∀ w ∈ subBlocks pu.Y.width, ∀ x ∈ motionUnits w, ∀ y ∈ motionUnits h,
      (mb x y).InRange)
    (subBlocks pu.Y.height)
    (fun h member start _ => by
      obtain ⟨after, run, kept, done⟩ := row h member start
      exact ⟨after, run, trivial, done, fun h' before w column x inX y inY =>
        kept x y (before w column x inX y inY)⟩)
    mb trivial
  exact ⟨after, run, done⟩

theorem setAllAffineMv_inRange {pu : PredictionUnit} {k m : Nat} (sideW : IsSide pu.Y.width k)
    (sideH : IsSide pu.Y.height m) {lt rt lb : Mv} (valid : ValidPoints pu lt rt lb)
    (clipCPMVs : Bool) (mb : Nat → Nat → Mv) :
    Succeeds (setAllAffineMv pu lt rt lb clipCPMVs mb) fun after =>
      (∀ x y : Nat, x < pu.Y.width / 4 → y < pu.Y.height / 4 → (after.mv x y).InRange) ∧
        ValidPoints pu (after.mvAffi 0) (after.mvAffi 1) (after.mvAffi 2) := by
  have low := sideW.low
  have low' := sideH.low
  unfold setAllAffineMv
  refine (clipControlPoints_succeeds clipCPMVs valid).bind fun points stored => ?_
  obtain ⟨affLT, affRT, affLB⟩ := points
  dsimp only at stored ⊢
  refine (affineDeltas_succeeds sideW sideH stored.lt stored.rt ?_).bind fun deltas bounded => ?_
  · intro mv some
    obtain ⟨sixParam, same⟩ := Option.ite_none_right_eq_some.mp some
    exact Option.some.inj same ▸ stored.lb sixParam
  generalize (if pu.cu.affineType = .AFFINEMODEL_6PARAM then some affLB else none).isSome = third
    at bounded
  have hor : (2 : Int) ^ (25 - k) ≤ 2 ^ 22 := pow_le_pow_right₀ (by decide) (by omega)
  have ver : (2 : Int) ^ (25 - if third then m else k) ≤ 2 ^ 22 :=
    pow_le_pow_right₀ (by decide) (by split <;> omega)
  have fits : (2 : Int) ^ (25 - k) * 2 ^ k + 2 ^ (25 - if third then m else k) * 2 ^ m + 2 ^ 25 <
      2 ^ 31 := by
    have first : (2 : Int) ^ (25 - k) * 2 ^ k ≤ 2 ^ 22 * 2 ^ 7 :=
      mul_le_mul hor (side_le sideW.high) (by positivity) (by decide)
    have second : (2 : Int) ^ (25 - if third then m else k) * 2 ^ m ≤ 2 ^ 22 * 2 ^ 7 :=
      mul_le_mul ver (side_le sideH.high) (by positivity) (by decide)
    omega
  refine (isSubblockVectorSpreadOverLimit_succeeds (bounded.horX.trans hor) (bounded.horY.trans hor)
    (bounded.verX.trans ver) (bounded.verY.trans ver) pu.interDir).bind fun overLimit _ => ?_
  refine (subBlocks_inRange (fun w column h row => subBlockMv_succeeds sideW sideH bounded fits overLimit
    (mem_subBlocks sideW column) (mem_subBlocks sideH row)) mb).bind fun mv range => ?_
  refine Succeeds.pure ⟨fun x y insideX insideY => ?_, stored⟩
  obtain ⟨w, column, inX⟩ := exists_subBlock insideX
  obtain ⟨h, row, inY⟩ := exists_subBlock insideY
  exact range h row w column x inX y inY

/-- The arithmetic of affine motion: inherited and constructed candidates, and sub-blocks. -/
theorem affineMotion_inRange (pu : PredictionUnit) (c e : Nat) (width : IsSide pu.Y.width c)
    (height : IsSide pu.Y.height e) :
    (∀ (slice : Slice) (puNeighbour : PredictionUnit) (X : RefPicList) (k m : Nat),
      IsSide puNeighbour.Y.width k → IsSide puNeighbour.Y.height m → IsNeighbour pu puNeighbour →
        ValidModel puNeighbour X →
          Succeeds (xInheritedAffineMv slice pu puNeighbour X) fun rcMv => ∀ n, (rcMv n).InRange) ∧
    (∀ (mi : Nat → Option MotionInfo) (gbiIdx modelIdx : Nat) (cand : AffineMergeCand), modelIdx < 6 →
      (∀ n motion, mi n = some motion → ∀ X, (motion.mv X).InRange) →
        Succeeds (getAffineControlPointCand pu mi gbiIdx modelIdx cand) fun result =>
          ∀ made, result = some made → ∀ X, ∀ n < 3, (made.mvFieldNeighbours X n).mv.InRange) ∧
    ∀ (lt rt lb : Mv) (clipCPMVs : Bool) (mb : Nat → Nat → Mv), ValidPoints pu lt rt lb →
      Succeeds (setAllAffineMv pu lt rt lb clipCPMVs mb) fun after =>
        (∀ x y : Nat, x < pu.Y.width / 4 → y < pu.Y.height / 4 → (after.mv x y).InRange) ∧
          ValidPoints pu (after.mvAffi 0) (after.mvAffi 1) (after.mvAffi 2) :=
  ⟨fun _ _ _ _ _ sideW sideH near valid =>
      xInheritedAffineMv_inRange sideW sideH width height near valid,
    fun _ gbiIdx _ cand known valid =>
      getAffineControlPointCand_inRange width height gbiIdx known valid cand,
    fun _ _ _ clipCPMVs mb valid => setAllAffineMv_inRange width height valid clipCPMVs mb⟩

/-- An affine unit above, with the extreme vectors in its corners. -/
def affineAbove : PredictionUnit :=
  { interUnit 1 with
    Y := ⟨⟨64, 56⟩, 8, 8⟩
    mvAffi := fun _ n => if n = 0 then ⟨-2 ^ 17, -2 ^ 17⟩ else ⟨2 ^ 17 - 1, 2 ^ 17 - 1⟩ }

theorem affineAbove_validModel : ValidModel affineAbove .REF_PIC_LIST_0 where
  control n _ := by
    unfold affineAbove Mv.InRange
    dsimp only
    split <;> decide
  third := by
    intro sixParam
    cases sixParam
  stored _ := (by unfold Mv.InRange; decide : (Mv.mk 16 (-16)).InRange)

theorem affineMotion_inRange_affineAbove :
    Succeeds (xInheritedAffineMv aboveOnly.slice (interUnit 0) affineAbove .REF_PIC_LIST_0)
      fun rcMv => ∀ n, (rcMv n).InRange :=
  (affineMotion_inRange (interUnit 0) 3 3 ⟨by decide, by decide, rfl⟩ ⟨by decide, by decide, rfl⟩).1
    aboveOnly.slice affineAbove .REF_PIC_LIST_0 3 3 ⟨by decide, by decide, rfl⟩
    ⟨by decide, by decide, rfl⟩
    ⟨posB1 (interUnit 0), by simp, by unfold Area.Contains; decide⟩ affineAbove_validModel

end Vtm.Motion
