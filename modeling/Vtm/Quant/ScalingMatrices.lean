import Vtm.Common.Quant
import Vtm.Std.Tiling

/-!
# Scaling matrices

The matrices that `setScalingListDec` and `setScalingList` compute, entry by entry. A chroma
block with a side of 64 samples has no coded list, and its matrices are not written; and
`setScalingList` ends at the first coded coefficient that is zero: `fullyDerived_iff`.
-/

namespace Vtm

open Vtm.Std

namespace MatrixId

variable (id : MatrixId)

def width : Nat := 2 ^ id.sizeX
def height : Nat := 2 ^ id.sizeY
@[grind =] def largeSideId : Nat := max id.sizeX id.sizeY

/-- The matrices of luma. -/
def luma : Bool := id.listId % 3 = 0

/-- The matrices that the loops are for: up to 64 samples a side, and not 2x2, 1x2, 2x1 or 1x1.
Among them are all transform blocks, also the narrow ones of ISP and of inter chroma. -/
structure TransformSize : Prop where
  sizeX_le : id.sizeX ≤ 6
  sizeY_le : id.sizeY ≤ 6
  listId_lt : id.listId < 6
  largeSideId_ge : 2 ≤ id.largeSideId

/-- The coded list of a matrix. -/
def listOf : Nat :=
  if id.largeSideId = 6 then 26 + id.listId / 3 else 6 * (id.largeSideId - 2) + 2 + id.listId

/-- The sides of the coded list. -/
def listSide : Nat := 2 ^ min 3 id.largeSideId

/-- The place in the coded list of row `j` and column `i`. -/
@[grind =] def listPlace (j i : Nat) : Nat :=
  id.listSide * (j * id.listSide / id.height) + i * id.listSide / id.width

/-- What the element of row `j` and column `i` is made of, but for the zero-out. -/
def codedElement (scalingList : ScalingList) (j i : Nat) : Quant.ListElement :=
  if 3 < id.largeSideId ∧ j = 0 ∧ i = 0 then .dc (scalingList.scalingListDC id.listOf)
  else .coeff (scalingList.scalingListCoef id.listOf (id.listPlace j i))

/-- Elements beyond 32 rows or columns. -/
def ZeroedOut (j i : Nat) : Prop := 32 ≤ j ∨ 32 ≤ i

instance (j i : Nat) : Decidable (ZeroedOut j i) := inferInstanceAs (Decidable (_ ∨ _))

/-- What the element of row `j` and column `i` is made of. -/
def element (scalingList : ScalingList) (j i : Nat) : Quant.ListElement :=
  if ZeroedOut j i then .zeroOut else id.codedElement scalingList j i

theorem TransformSize.largeSideId_le {id : MatrixId} (size : id.TransformSize) :
    id.largeSideId ≤ 6 :=
  max_le size.sizeX_le size.sizeY_le

end MatrixId

namespace Quant

/-- The loops over the elements of a matrix. -/
def fill (value : ListElement → Int) (writes : List (Nat × ListElement)) (matrix : Nat → Int) :
    Nat → Int :=
  assign Prod.fst (fun write _ => value write.2) writes matrix

section Process

variable {value : ListElement → Int} {coeff : Nat → Int} {height width ratio sizuNum : Nat}
  {dc : Int} {matrix : Nat → Int}

theorem mem_rounds {j i : Nat} : (j, i) ∈ rounds height width ↔ j < height ∧ i < width := by
  simp [rounds]

theorem mem_roundWrites {j i : Nat} {write : Nat × ListElement}
    (member : write ∈ roundWrites coeff height width sizuNum dc j i) :
    (write.1 = j * width + i ∧
      write.2 = if j ≥ ZERO_OUT_TH ∨ i ≥ ZERO_OUT_TH then .zeroOut
        else .coeff (coeff (listIndex height width sizuNum j i))) ∨
      (write = (0, .dc dc) ∧ largeOne height width > 8) := by
  unfold roundWrites at member
  split at member
  · rename_i zeroed
    rw [List.mem_singleton] at member
    subst member
    exact Or.inl ⟨rfl, (if_pos zeroed).symm⟩
  · rename_i kept
    rcases List.mem_cons.mp member with rfl | more
    · exact Or.inl ⟨rfl, (if_neg kept).symm⟩
    · split at more
      · rename_i large
        exact Or.inr ⟨List.mem_singleton.mp more, large⟩
      · cases more

/-- An element behind the first one. -/
theorem fill_rec_of_ne (apart : height ≠ width) {j i : Nat} (row : j < height)
    (column : i < width) (other : ¬ (j = 0 ∧ i = 0) ∨ largeOne height width ≤ 8) :
    fill value (processWrites coeff height width ratio sizuNum dc) matrix (j * width + i) =
      value (if j ≥ ZERO_OUT_TH ∨ i ≥ ZERO_OUT_TH then .zeroOut
        else .coeff (coeff (listIndex height width sizuNum j i))) := by
  rw [fill, processWrites, if_pos apart]
  apply assign_eq
  · intro write member here _
    obtain ⟨⟨j', i'⟩, round, written⟩ := List.mem_flatMap.mp member
    obtain ⟨row', column'⟩ := mem_rounds.mp round
    rcases mem_roundWrites written with ⟨place, entry⟩ | ⟨rfl, large⟩
    · obtain ⟨rfl, rfl⟩ := raster_inj column' column (place.symm.trans here)
      rw [entry]
    · obtain ⟨rfl, rfl⟩ := raster_inj (y := 0) (Nat.zero_lt_of_lt column) column
        ((congrArg (· + 0) (Nat.zero_mul width)).trans here)
      rcases other with other | small
      · exact absurd ⟨rfl, rfl⟩ other
      · omega
  · refine ⟨(j * width + i, if j ≥ ZERO_OUT_TH ∨ i ≥ ZERO_OUT_TH then .zeroOut
      else .coeff (coeff (listIndex height width sizuNum j i))), ?_, rfl⟩
    refine List.mem_flatMap.mpr ⟨(j, i), mem_rounds.mpr ⟨row, column⟩, ?_⟩
    unfold roundWrites
    split
    · exact List.mem_singleton.mpr rfl
    · exact List.mem_cons_self

/-- Each round that is not zeroed out writes the DC value last. -/
theorem fill_dc (large : largeOne height width > 8) {positions : List (Nat × Nat)}
    (inside : ∀ position ∈ positions, position.2 < width)
    (start : matrix 0 = value (.dc dc) ∨ ∃ position ∈ positions,
      ¬ (position.1 ≥ ZERO_OUT_TH ∨ position.2 ≥ ZERO_OUT_TH)) :
    fill value (positions.flatMap fun position =>
      roundWrites coeff height width sizuNum dc position.1 position.2) matrix 0 =
        value (.dc dc) := by
  induction positions generalizing matrix with
  | nil =>
      rcases start with start | ⟨_, member, _⟩
      · exact start
      · cases member
  | cons position positions ih =>
      obtain ⟨column, later⟩ := List.forall_mem_cons.mp inside
      rw [List.flatMap_cons, fill, assign_append]
      apply ih later
      by_cases zeroed : position.1 ≥ ZERO_OUT_TH ∨ position.2 ≥ ZERO_OUT_TH
      · rcases start with start | ⟨other, member, kept⟩
        · left
          rw [roundWrites, if_pos zeroed]
          have apart : position.1 * width + position.2 ≠ 0 := by
            rcases zeroed with row | column'
            · have rows : 0 < position.1 * width :=
                Nat.mul_pos (lt_of_lt_of_le (by decide) row) (Nat.zero_lt_of_lt column)
              omega
            · have columns : 0 < position.2 := lt_of_lt_of_le (by decide) column'
              omega
          refine Eq.trans (assign_of_notMem fun write member => ?_) start
          rw [List.mem_singleton.mp member]
          exact apart
        · rcases List.mem_cons.mp member with rfl | there
          · exact absurd zeroed kept
          · exact Or.inr ⟨other, there, kept⟩
      · left
        rw [roundWrites, if_neg zeroed, if_pos large]
        simp only [assign, List.foldl_cons, List.foldl_nil, Function.update_self]

theorem fill_rec_dc (apart : height ≠ width) (large : largeOne height width > 8)
    (rows : 0 < height) (columns : 0 < width) :
    fill value (processWrites coeff height width ratio sizuNum dc) matrix 0 = value (.dc dc) := by
  rw [processWrites, if_pos apart]
  refine fill_dc large (fun position member => (mem_rounds.mp member).2)
    (Or.inr ⟨(0, 0), mem_rounds.mpr ⟨rows, columns⟩, by decide⟩)

theorem fill_square {side j i : Nat} (row : j < side) (column : i < side) :
    fill value (processWrites coeff side side ratio sizuNum dc) matrix (j * side + i) =
      value (if 1 < ratio ∧ j = 0 ∧ i = 0 then .dc dc
        else .coeff (coeff (sizuNum * (j / ratio) + i / ratio))) := by
  have entry {array : Nat → Int} : assign Prod.fst (fun write _ => value write.2)
      ((rounds side side).map fun round => (round.1 * side + round.2,
        .coeff (coeff (sizuNum * (round.1 / ratio) + round.2 / ratio)))) array (j * side + i) =
      value (.coeff (coeff (sizuNum * (j / ratio) + i / ratio))) := by
    apply assign_eq
    · intro write member here _
      obtain ⟨⟨j', i'⟩, round, rfl⟩ := List.mem_map.mp member
      obtain ⟨rfl, rfl⟩ := raster_inj (mem_rounds.mp round).2 column here
      rfl
    · exact ⟨_, List.mem_map.mpr ⟨(j, i), mem_rounds.mpr ⟨row, column⟩, rfl⟩, rfl⟩
  rw [fill, processWrites, if_neg (by simp), assign_append]
  by_cases large : 1 < ratio
  · rw [if_pos large]
    by_cases first : j = 0 ∧ i = 0
    · obtain ⟨rfl, rfl⟩ := first
      rw [if_pos ⟨large, rfl, rfl⟩, Nat.zero_mul]
      simp only [assign, List.foldl_cons, List.foldl_nil, Function.update_self]
    · rw [if_neg fun all => first all.2]
      refine Eq.trans (assign_of_notMem fun write member => ?_) entry
      rw [List.mem_singleton.mp member]
      intro here
      obtain ⟨zeroI, zeroJ⟩ := raster_inj (y := 0) (Nat.zero_lt_of_lt column) column
        ((congrArg (· + 0) (Nat.zero_mul side)).trans here)
      exact first ⟨zeroJ.symm, zeroI.symm⟩
  · rw [if_neg large, if_neg fun all => large all.1]
    exact entry

end Process

section Places

/-- Subsampling by a power of two. -/
theorem div_pow_eq {a b : Nat} (le : a ≤ b) (j : Nat) : j / 2 ^ (b - a) = j * 2 ^ a / 2 ^ b := by
  have cancel := Nat.mul_div_mul_right j (2 ^ (b - a)) (Nat.two_pow_pos a)
  rw [← pow_add, Nat.sub_add_cancel le] at cancel
  exact cancel.symm

/-- Subsampling along the shorter side. -/
theorem mul_pow_div_eq {a b c : Nat} (le : a ≤ b) (shorter : c ≤ b) (i : Nat) :
    i * 2 ^ (b - c) / 2 ^ (b - a) = i * 2 ^ a / 2 ^ c := by
  have cancel := Nat.mul_div_mul_right (i * 2 ^ a) (2 ^ c) (Nat.two_pow_pos (b - c))
  rw [← pow_add, Nat.add_sub_cancel' shorter] at cancel
  rw [div_pow_eq le, ← cancel]
  ring_nf

theorem pow_div_pow {a b : Nat} (le : a ≤ b) : 2 ^ b / 2 ^ a = 2 ^ (b - a) :=
  Nat.pow_div le (by decide)

variable {id : MatrixId}

theorem listIndex_eq (apart : id.sizeX ≠ id.sizeY) (j i : Nat) :
    listIndex id.height id.width id.listSide j i = id.listPlace j i := by
  have positive (b : Nat) : (2 : Nat) ^ b ≠ 0 := (Nat.two_pow_pos b).ne'
  unfold listIndex MatrixId.listPlace MatrixId.height MatrixId.width MatrixId.listSide
  rcases Nat.lt_or_gt_of_ne apart with tall | wide
  · have side : id.largeSideId = id.sizeY := max_eq_right (Nat.le_of_lt tall)
    have le : min 3 id.largeSideId ≤ id.sizeY := side ▸ min_le_right _ _
    have higher : (2 : Nat) ^ id.sizeY > 2 ^ id.sizeX := Nat.pow_lt_pow_right (by decide) tall
    simp only [higher, if_true, pow_div_pow le, pow_div_pow (Nat.le_of_lt tall), ne_eq, positive,
      not_false_eq_true]
    rw [div_pow_eq le, mul_pow_div_eq le (Nat.le_of_lt tall)]
  · have side : id.largeSideId = id.sizeX := max_eq_left (Nat.le_of_lt wide)
    have le : min 3 id.largeSideId ≤ id.sizeX := side ▸ min_le_right _ _
    have wider : (2 : Nat) ^ id.sizeX > 2 ^ id.sizeY := Nat.pow_lt_pow_right (by decide) wide
    have flat : ¬ (2 : Nat) ^ id.sizeY > 2 ^ id.sizeX := Nat.not_lt.mpr (Nat.le_of_lt wider)
    simp only [flat, if_false, pow_div_pow le, pow_div_pow (Nat.le_of_lt wide), ne_eq, positive,
      not_false_eq_true, if_true]
    rw [mul_pow_div_eq le (Nat.le_of_lt wide), div_pow_eq le]

/-- The place is inside the coded list. -/
theorem listPlace_lt {j i : Nat} (row : j < id.height) (column : i < id.width) :
    id.listPlace j i < id.listSide * id.listSide := by
  have down : j * id.listSide / id.height < id.listSide :=
    Nat.div_lt_of_lt_mul (Nat.mul_lt_mul_of_pos_right row (Nat.two_pow_pos _))
  have right : i * id.listSide / id.width < id.listSide :=
    Nat.div_lt_of_lt_mul (Nat.mul_lt_mul_of_pos_right column (Nat.two_pow_pos _))
  rw [MatrixId.listPlace, Nat.mul_comm]
  exact raster_lt right down

/-- The side that is passed to `processScalingList`. -/
theorem sizuNum_eq (large : 2 ≤ id.largeSideId) (le : id.largeSideId ≤ 6) :
    (if id.sizeX = id.sizeY then min MAX_MATRIX_SIZE_NUM (g_scalingListSizeX id.sizeX)
      else if max id.sizeX id.sizeY ≥ 3 then 8 else 4) = id.listSide := by
  unfold MatrixId.listSide g_scalingListSizeX MAX_MATRIX_SIZE_NUM
  unfold MatrixId.largeSideId at *
  split
  · rename_i square
    have side : max id.sizeX id.sizeY = id.sizeX := by rw [← square, max_self]
    rw [side] at *
    have cases' : id.sizeX = 2 ∨ id.sizeX = 3 ∨ id.sizeX = 4 ∨ id.sizeX = 5 ∨ id.sizeX = 6 := by omega
    rcases cases' with h | h | h | h | h <;> rw [h] <;> rfl
  · have cases' : max id.sizeX id.sizeY = 2 ∨ max id.sizeX id.sizeY = 3 ∨
        max id.sizeX id.sizeY = 4 ∨ max id.sizeX id.sizeY = 5 ∨ max id.sizeX id.sizeY = 6 := by
      omega
    rcases cases' with h | h | h | h | h <;> rw [h] <;> rfl

end Places

/-- The assignments that both quantisers make for a derivation. -/
def listWrites (scalingList : ScalingList) (derivation : Derivation) : List (Nat × ListElement) :=
  let width := g_scalingListSizeX derivation.id.sizeX
  let height := g_scalingListSizeX derivation.id.sizeY
  let largeSideId := max derivation.id.sizeX derivation.id.sizeY
  let square := derivation.id.sizeX = derivation.id.sizeY
  processWrites (scalingList.scalingListCoef derivation.scalingListId) height width
    (if square then width / min MAX_MATRIX_SIZE_NUM width else if largeSideId > 3 then 2 else 1)
    (if square then min MAX_MATRIX_SIZE_NUM width else if largeSideId ≥ 3 then 8 else 4)
    (scalingList.scalingListDC derivation.scalingListId)

/-- The scale that `setScalingListDec` multiplies with. -/
def invQuantScale (id : MatrixId) (qp : Nat) : Int :=
  g_invQuantScales (blockIsNotPowerOf4 id.width id.height) qp

/-- The scale that `setScalingList` divides. -/
def quantScale (id : MatrixId) (qp : Nat) : Int :=
  g_quantScales (blockIsNotPowerOf4 id.width id.height) qp * 2 ^ LOG2_SCALING_LIST_NEUTRAL_VALUE.toNat

theorem xSetScalingListEnc_eq (scalingList : ScalingList) (derivation : Derivation) (qp : Nat)
    (matrix : Nat → Int) :
    xSetScalingListEnc scalingList derivation qp matrix =
      assignM Prod.fst (fun write _ => quantElement (quantScale derivation.id qp) write.2)
        (listWrites scalingList derivation) matrix := rfl

section Entry

variable {id : MatrixId} (size : id.TransformSize) (scalingList : ScalingList)
  (value : ListElement → Int)

theorem largeOne_eq (apart : id.sizeX ≠ id.sizeY) :
    largeOne id.height id.width = 2 ^ id.largeSideId := by
  unfold largeOne MatrixId.height MatrixId.width MatrixId.largeSideId
  rcases Nat.lt_or_gt_of_ne apart with tall | wide
  · rw [if_neg (Nat.not_lt.mpr (Nat.pow_le_pow_right (by decide) (Nat.le_of_lt tall))),
      max_eq_right (Nat.le_of_lt tall)]
  · rw [if_pos (Nat.pow_lt_pow_right (by decide) wide), max_eq_left (Nat.le_of_lt wide)]

theorem largeOne_gt_iff (apart : id.sizeX ≠ id.sizeY) :
    largeOne id.height id.width > 8 ↔ 3 < id.largeSideId := by
  rw [largeOne_eq apart]
  exact Nat.pow_lt_pow_iff_right (n := 3) (by decide : 1 < 2)

theorem height_ne_width (apart : id.sizeX ≠ id.sizeY) : id.height ≠ id.width := fun same =>
  apart (Nat.pow_right_injective le_rfl same).symm

include size

/-- The assignments of a block that is not square. -/
theorem listWrites_rec (apart : id.sizeX ≠ id.sizeY) :
    listWrites scalingList ⟨id, id.listOf⟩ =
      processWrites (scalingList.scalingListCoef id.listOf) id.height id.width
        (if id.largeSideId > 3 then 2 else 1) id.listSide (scalingList.scalingListDC id.listOf) := by
  have side := sizuNum_eq size.largeSideId_ge size.largeSideId_le
  rw [if_neg apart] at side
  simp only [listWrites, apart, if_false, side]
  rfl

/-- The elements of a matrix, except that a square one is not zeroed out. -/
theorem fill_listWrites {j i : Nat} (row : j < id.height) (column : i < id.width)
    (matrix : Nat → Int) :
    fill value (listWrites scalingList ⟨id, id.listOf⟩) matrix (j * id.width + i) =
      value (if id.sizeX ≠ id.sizeY ∧ MatrixId.ZeroedOut j i then .zeroOut
        else id.codedElement scalingList j i) := by
  by_cases square : id.sizeX = id.sizeY
  · have sides : id.height = id.width := by rw [MatrixId.height, MatrixId.width, square]
    have side : id.largeSideId = id.sizeX := by rw [MatrixId.largeSideId, ← square, max_self]
    have le : min 3 id.largeSideId ≤ id.sizeX := side ▸ min_le_right _ _
    have whole : min MAX_MATRIX_SIZE_NUM (g_scalingListSizeX id.sizeX) = id.listSide := by
      rw [← sizuNum_eq size.largeSideId_ge size.largeSideId_le, if_pos square]
    have ratio : g_scalingListSizeX id.sizeX / id.listSide =
        2 ^ (id.sizeX - min 3 id.largeSideId) := pow_div_pow le
    have ratio_gt : 1 < 2 ^ (id.sizeX - min 3 id.largeSideId) ↔ 3 < id.largeSideId := by
      rw [Nat.one_lt_two_pow_iff]
      omega
    have writes : listWrites scalingList ⟨id, id.listOf⟩ =
        processWrites (scalingList.scalingListCoef id.listOf) id.width id.width
          (2 ^ (id.sizeX - min 3 id.largeSideId)) id.listSide
          (scalingList.scalingListDC id.listOf) := by
      simp only [listWrites, square, if_true]
      rw [← square, whole, ratio]
      rfl
    rw [writes, if_neg fun all => all.1 square]
    rw [sides] at row
    rw [fill_square row column, MatrixId.codedElement, MatrixId.listPlace, sides]
    have place (p : Nat) : p / 2 ^ (id.sizeX - min 3 id.largeSideId) = p * id.listSide / id.width :=
      div_pow_eq le p
    simp only [ratio_gt, place]
  · have apart := height_ne_width square
    rw [listWrites_rec size scalingList square]
    by_cases first : 3 < id.largeSideId ∧ j = 0 ∧ i = 0
    · obtain ⟨big, rfl, rfl⟩ := first
      rw [Nat.zero_mul, Nat.add_zero, fill_rec_dc apart ((largeOne_gt_iff square).mpr big)
        (Nat.two_pow_pos _) (Nat.two_pow_pos _), if_neg fun all => absurd all.2 (by decide),
        MatrixId.codedElement, if_pos ⟨big, rfl, rfl⟩]
    · rw [fill_rec_of_ne apart row column, MatrixId.codedElement, if_neg first,
        listIndex_eq square]
      · simp only [MatrixId.ZeroedOut, ZERO_OUT_TH, ge_iff_le, ne_eq, square, not_false_eq_true,
          true_and]
      · by_cases start : j = 0 ∧ i = 0
        · right
          by_contra big
          exact first ⟨(largeOne_gt_iff square).mp (Nat.lt_of_not_le big), start⟩
        · exact Or.inl start

end Entry

/-! ## The loops over the matrices -/

theorem square_of_mem {derivation : Derivation} (mem : derivation ∈ squareDerivations) :
    derivation.id.sizeX = derivation.id.sizeY := by
  obtain ⟨round, inRounds, rfl⟩ := List.mem_map.mp mem
  obtain ⟨size, -, ofSize⟩ := List.mem_flatMap.mp (List.fst_mem_of_mem_zipIdx inRounds)
  obtain ⟨list, -, coded⟩ := List.mem_map.mp ofSize
  rw [← coded]

theorem apart_of_mem {derivation : Derivation} (mem : derivation ∈ recDerivations) :
    derivation.id.sizeX ≠ derivation.id.sizeY := by
  obtain ⟨sizew, -, ofWidth⟩ := List.mem_flatMap.mp mem
  obtain ⟨sizeh, coded, ofSize⟩ := List.mem_flatMap.mp ofWidth
  obtain ⟨list, -, rfl⟩ := List.mem_map.mp ofSize
  have kept := (List.mem_filter.mp coded).2
  simp only [skipsRec, Bool.not_eq_true', decide_eq_false_iff_not, not_or] at kept
  exact kept.1

/-- Where a matrix stands in the order of the loops. -/
def idOrder (id : MatrixId) : Nat := 64 * id.sizeX + 8 * id.sizeY + id.listId

theorem nodup_of_idOrder {derivations : List Derivation}
    (increasing : (derivations.map fun derivation => idOrder derivation.id).IsChain (· < ·)) :
    (derivations.map Derivation.id).Nodup := by
  have each := increasing.pairwise
  rw [List.pairwise_map] at each
  refine List.pairwise_map.mpr (each.imp fun less same => ?_)
  rw [same] at less
  exact lt_irrefl _ less

theorem derivations_nodup :
    ((squareDerivations ++ recDerivations).map Derivation.id).Nodup := by
  rw [List.map_append]
  refine (nodup_of_idOrder (by decide)).append (nodup_of_idOrder (by decide +kernel)) ?_
  intro id inSquare inRec
  obtain ⟨a, memA, rfl⟩ := List.mem_map.mp inSquare
  obtain ⟨b, memB, same⟩ := List.mem_map.mp inRec
  exact apart_of_mem memB (same ▸ square_of_mem memA)

private theorem mem_squareDerivations_fin : ∀ size : Fin 7, ∀ listId : Fin 6,
    2 ≤ size.val → (size.val = 6 → listId.val % 3 = 0) →
      (⟨⟨size, size, listId⟩, MatrixId.listOf ⟨size, size, listId⟩⟩ : Derivation) ∈
        squareDerivations := by
  decide

theorem mem_recDerivations {id : MatrixId} (size : id.TransformSize)
    (apart : id.sizeX ≠ id.sizeY) (luma : id.largeSideId = 6 → id.listId % 3 = 0) :
    (⟨id, id.listOf⟩ : Derivation) ∈ recDerivations := by
  obtain ⟨sizeX, sizeY, list, low⟩ := size
  refine List.mem_flatMap.mpr ⟨id.sizeX, List.mem_range.mpr (Nat.lt_succ_of_le sizeX), ?_⟩
  have coded : id.sizeY ∈ (List.range (SCALING_LIST_LAST_CODED + 1)).filter
      fun sizeh => !skipsRec id.sizeX sizeh := by
    refine List.mem_filter.mpr ⟨List.mem_range.mpr (Nat.lt_succ_of_le sizeY), ?_⟩
    simp only [skipsRec, apart, SCALING_LIST_1x1, SCALING_LIST_4x4, false_or, Bool.not_eq_true',
      decide_eq_false_iff_not]
    unfold MatrixId.largeSideId at low
    omega
  refine List.mem_flatMap.mpr ⟨id.sizeY, coded, List.mem_map.mpr ⟨id.listId, ?_, ?_⟩⟩
  · refine List.mem_filter.mpr ⟨List.mem_range.mpr list, ?_⟩
    simp only [Bool.not_eq_true', decide_eq_false_iff_not, not_and, not_not]
    exact luma
  · congr 1
    show 6 * (id.largeSideId - 2) + 2 + id.listId / (if id.largeSideId = 6 then 3 else 1) = _
    unfold MatrixId.listOf
    split
    · omega
    · omega

/-- The other way round. -/
theorem of_mem_recDerivations {derivation : Derivation} (mem : derivation ∈ recDerivations) :
    derivation.id.TransformSize ∧ derivation.scalingListId = derivation.id.listOf := by
  have apart := apart_of_mem mem
  obtain ⟨sizew, width, ofWidth⟩ := List.mem_flatMap.mp mem
  obtain ⟨sizeh, coded, ofSize⟩ := List.mem_flatMap.mp ofWidth
  obtain ⟨list, listed, rfl⟩ := List.mem_map.mp ofSize
  obtain ⟨height, kept⟩ := List.mem_filter.mp coded
  have inside : list < 6 := List.mem_range.mp (List.mem_filter.mp listed).1
  have width' : sizew < 7 := List.mem_range.mp width
  have height' : sizeh < 7 := List.mem_range.mp height
  simp only [skipsRec, Bool.not_eq_true', decide_eq_false_iff_not] at kept
  have low : 2 ≤ max sizew sizeh := by
    unfold SCALING_LIST_1x1 SCALING_LIST_4x4 at kept
    dsimp only at apart
    omega
  refine ⟨⟨Nat.le_of_lt_succ width', Nat.le_of_lt_succ height', inside, low⟩, ?_⟩
  show 6 * (max sizew sizeh - 2) + 2 + list / (if max sizew sizeh = 6 then 3 else 1) =
    if max sizew sizeh = 6 then 26 + list / 3 else 6 * (max sizew sizeh - 2) + 2 + list
  generalize max sizew sizeh = largerSide at low ⊢
  split
  · omega
  · rw [Nat.div_one]

/-- The matrices of the blocks that have a coded list are computed from it. -/
theorem mem_derivations {id : MatrixId} (size : id.TransformSize)
    (listed : id.largeSideId = 6 → id.luma = true) :
    (⟨id, id.listOf⟩ : Derivation) ∈ squareDerivations ++ recDerivations := by
  have sizeX := size.sizeX_le
  have first : id.largeSideId = 6 → id.listId % 3 = 0 := fun large => by
    simpa [MatrixId.luma] using listed large
  by_cases square : id.sizeX = id.sizeY
  · have large : id.largeSideId = id.sizeX := by rw [MatrixId.largeSideId, ← square, max_self]
    have here := mem_squareDerivations_fin ⟨id.sizeX, by omega⟩ ⟨id.listId, size.listId_lt⟩
      (large ▸ size.largeSideId_ge) (large ▸ first)
    have same : id = ⟨id.sizeX, id.sizeX, id.listId⟩ :=
      congrArg (MatrixId.mk id.sizeX · id.listId) square.symm
    exact List.mem_append_left _ (by rw [same]; exact here)
  · exact List.mem_append_right _ (mem_recDerivations size square first)

/-- Chroma blocks with a side of 64 samples have none. -/
theorem notMem_derivations : ∀ derivation ∈ squareDerivations ++ recDerivations,
    derivation.id.largeSideId = 6 → derivation.id.luma = true := by
  decide +kernel

theorem rems_nodup : ((List.range SCALING_LIST_REM_NUM).map id).Nodup := by
  rw [List.map_id]
  exact List.nodup_range

section Set

variable {value : MatrixId → Nat → ListElement → Int} {scalingList : ScalingList}
  {matrices : MatrixId → Nat → Nat → Int}

/-- The loops over all matrices, with the elements in place of what is made of them. -/
def fillMatrices (value : MatrixId → Nat → ListElement → Int) (scalingList : ScalingList)
    (matrices : MatrixId → Nat → Nat → Int) : MatrixId → Nat → Nat → Int :=
  assign Derivation.id
    (fun derivation => assign id
      (fun qp => fill (value derivation.id qp) (listWrites scalingList derivation))
      (List.range SCALING_LIST_REM_NUM))
    (squareDerivations ++ recDerivations) matrices

theorem fillMatrices_of_mem {derivation : Derivation}
    (member : derivation ∈ squareDerivations ++ recDerivations) {qp : Nat} (rem : qp < 6) :
    fillMatrices value scalingList matrices derivation.id qp =
      fill (value derivation.id qp) (listWrites scalingList derivation)
        (matrices derivation.id qp) := by
  rw [fillMatrices, assign_of_mem derivations_nodup member]
  exact @assign_of_mem _ _ _ _ id
    (fun qp => fill (value derivation.id qp) (listWrites scalingList derivation)) _ _ rems_nodup
    qp (List.mem_range.mpr rem)

theorem fillMatrices_of_chroma {id : MatrixId} (large : id.largeSideId = 6)
    (chroma : id.luma = false) : fillMatrices value scalingList matrices id = matrices id := by
  refine assign_of_notMem fun derivation member same => ?_
  have luma := notMem_derivations derivation member (same ▸ large)
  rw [same, chroma] at luma
  cases luma

/-- The elements of a block that has a coded list. -/
theorem fillMatrices_entry {id : MatrixId} (size : id.TransformSize)
    (listed : id.largeSideId = 6 → id.luma = true) {qp : Nat} (rem : qp < 6) {j i : Nat}
    (row : j < id.height) (column : i < id.width) :
    fillMatrices value scalingList matrices id qp (j * id.width + i) =
      value id qp (if id.sizeX ≠ id.sizeY ∧ MatrixId.ZeroedOut j i then .zeroOut
        else id.codedElement scalingList j i) := by
  have set := @fillMatrices_of_mem value scalingList matrices _ (mem_derivations size listed) qp rem
  exact (congrFun set _).trans (fill_listWrites size scalingList (value id qp) row column _)

theorem setMatricesDec_eq_fillMatrices :
    setMatricesDec scalingList matrices =
      fillMatrices (fun id qp => dequantElement (invQuantScale id qp)) scalingList matrices := rfl

end Set

section Derived

variable {id : MatrixId} (size : id.TransformSize)
include size

theorem coefNum_listOf : ScalingList.coefNum id.listOf = id.listSide * id.listSide := by
  have ge := size.largeSideId_ge
  have le := size.largeSideId_le
  have list := size.listId_lt
  have matrixSize : ScalingList.matrixSize id.listOf = id.listSide := by
    unfold ScalingList.matrixSize MatrixId.listOf MatrixId.listSide
      ScalingList.SCALING_LIST_1D_START_4x4 ScalingList.SCALING_LIST_1D_START_8x8
    split
    · rename_i last
      rw [if_neg (by omega), if_neg (by omega), last]
      rfl
    · have cases' : id.largeSideId = 2 ∨ id.largeSideId = 3 ∨ id.largeSideId = 4 ∨
        id.largeSideId = 5 := by omega
      rcases cases' with h | h | h | h <;> rw [h]
      · rw [if_neg (by omega), if_pos (by omega)]
        rfl
      all_goals
        rw [if_neg (by omega), if_neg (by omega)]
        rfl
  rw [ScalingList.coefNum, matrixSize]

/-- The matrices of a block that has a coded list. -/
theorem dequantCoef_entry (listed : id.largeSideId = 6 → id.luma = true) {qp : Nat} (rem : qp < 6)
    (scalingList : ScalingList) (quant : Quant) {j i : Nat} (row : j < id.height)
    (column : i < id.width) :
    (setScalingListDec scalingList quant).dequantCoef id qp (j * id.width + i) =
      dequantElement (invQuantScale id qp)
        (if id.sizeX ≠ id.sizeY ∧ MatrixId.ZeroedOut j i then .zeroOut
          else id.codedElement scalingList j i) := by
  change setMatricesDec scalingList quant.dequantCoef id qp (j * id.width + i) = _
  rw [setMatricesDec_eq_fillMatrices]
  exact fillMatrices_entry size listed rem row column

omit size in
/-- Without a coded list the matrix is left. -/
theorem dequantCoef_of_chroma (large : id.largeSideId = 6) (chroma : id.luma = false)
    (scalingList : ScalingList) (quant : Quant) :
    (setScalingListDec scalingList quant).dequantCoef id = quant.dequantCoef id := by
  change setMatricesDec scalingList quant.dequantCoef id = _
  rw [setMatricesDec_eq_fillMatrices]
  exact fillMatrices_of_chroma large chroma

/-- There is nothing beyond 32 rows and columns in a smaller block. -/
theorem not_zeroedOut (small : id.largeSideId ≠ 6) {j i : Nat} (row : j < id.height)
    (column : i < id.width) : ¬ MatrixId.ZeroedOut j i := by
  have le := size.largeSideId_le
  have sides : id.sizeX ≤ 5 ∧ id.sizeY ≤ 5 := by
    unfold MatrixId.largeSideId at *
    omega
  have width : id.width ≤ 2 ^ 5 := Nat.pow_le_pow_right (by decide) sides.1
  have height : id.height ≤ 2 ^ 5 := Nat.pow_le_pow_right (by decide) sides.2
  rintro (down | right) <;> omega

/-- Only the square matrix of 64x64 is not zeroed out. -/
theorem element_eq (derived : id.largeSideId = 6 → id.sizeX ≠ id.sizeY) {j i : Nat}
    (row : j < id.height) (column : i < id.width) (scalingList : ScalingList) :
    (if id.sizeX ≠ id.sizeY ∧ MatrixId.ZeroedOut j i then ListElement.zeroOut
      else id.codedElement scalingList j i) = id.element scalingList j i := by
  unfold MatrixId.element
  by_cases beyond : MatrixId.ZeroedOut j i
  · have large : id.largeSideId = 6 := by
      by_contra small
      exact not_zeroedOut size small row column beyond
    rw [if_pos beyond, if_pos ⟨derived large, beyond⟩]
  · rw [if_neg beyond, if_neg fun both => beyond both.2]

end Derived

/-! ## The divisions -/

/-- The elements that `processScalingListEnc` can make. -/
def ListElement.Divides : ListElement → Prop
  | .zeroOut => True
  | .coeff divisor => divisor ≠ 0
  | .dc divisor => divisor % 2 ^ 32 ≠ 0

/-- The quotients. -/
def quotient (quantScales : Int) : ListElement → Int
  | .zeroOut => 0
  | .coeff coeff => quantScales.tdiv coeff
  | .dc dc => quantScales.tdiv (dc % 2 ^ 32)

section Divide

variable {quantScales : Int}

theorem div32_eq (scale : Fits32 quantScales ∧ 0 ≤ quantScales) {divisor : Int}
    (divides : divisor ≠ 0) : div32 quantScales divisor = .ok (quantScales.tdiv divisor) := by
  have smaller := Int.natAbs_tdiv_le_natAbs quantScales divisor
  obtain ⟨⟨-, high⟩, low⟩ := scale
  rw [div32, if_neg divides]
  exact int32_eq ⟨by omega, by omega⟩

theorem quantElement_eq (scale : Fits32 quantScales ∧ 0 ≤ quantScales) {element : ListElement}
    (divides : element.Divides) :
    quantElement quantScales element = .ok (quotient quantScales element) := by
  cases element with
  | zeroOut => rfl
  | coeff coeff => exact div32_eq scale divides
  | dc dc => exact div32_eq scale divides

theorem quantElement_fails {element : ListElement} (zero : ¬ element.Divides) :
    quantElement quantScales element = .error "division by zero" := by
  cases element with
  | zeroOut => exact absurd trivial zero
  | coeff coeff => exact if_pos (not_not.mp zero)
  | dc dc => exact if_pos (not_not.mp zero)

end Divide

theorem g_quantScales_mem (notPowerOf4 : Bool) {rem : Nat} (lt : rem < 6) :
    0 ≤ g_quantScales notPowerOf4 rem ∧ g_quantScales notPowerOf4 rem ≤ 26214 := by
  have all : ∀ notPowerOf4 : Bool, ∀ rem : Fin 6,
      0 ≤ g_quantScales notPowerOf4 rem ∧ g_quantScales notPowerOf4 rem ≤ 26214 := by decide
  exact all notPowerOf4 ⟨rem, lt⟩

theorem quantScale_mem (id : MatrixId) {qp : Nat} (rem : qp < 6) :
    Fits32 (quantScale id qp) ∧ 0 ≤ quantScale id qp := by
  obtain ⟨low, high⟩ := g_quantScales_mem (blockIsNotPowerOf4 id.width id.height) rem
  have scale : quantScale id qp = g_quantScales (blockIsNotPowerOf4 id.width id.height) qp * 16 :=
    rfl
  rw [scale]
  exact ⟨⟨by omega, by omega⟩, by omega⟩

/-- The lists without a zero that is divided by: the coefficients of the 28 coded lists, and the
DC values of those that have one. -/
structure NonzeroList (scalingList : ScalingList) : Prop where
  coef : ∀ scalingListId < 28, ∀ idx < ScalingList.coefNum scalingListId,
    scalingList.scalingListCoef scalingListId idx ≠ 0
  dc : ∀ scalingListId, ScalingList.SCALING_LIST_1D_START_16x16 ≤ scalingListId →
    scalingListId < 28 → scalingList.scalingListDC scalingListId % 2 ^ 32 ≠ 0

section Square

/-- The side of the coded list of a square block, and the ratio. -/
def squareSide (derivation : Derivation) : Nat := min 8 (2 ^ derivation.id.sizeX)
def squareRatio (derivation : Derivation) : Nat :=
  2 ^ derivation.id.sizeX / min 8 (2 ^ derivation.id.sizeX)

private theorem squareDerivations_lists : ∀ derivation ∈ squareDerivations,
    squareSide derivation * squareRatio derivation = 2 ^ derivation.id.sizeX ∧
      0 < squareRatio derivation ∧
      ScalingList.coefNum derivation.scalingListId =
        squareSide derivation * squareSide derivation ∧
      derivation.scalingListId < 28 ∧
      (1 < squareRatio derivation ↔
        ScalingList.SCALING_LIST_1D_START_16x16 ≤ derivation.scalingListId) := by
  decide

private theorem squareDerivations_ids :
    squareDerivations.map Derivation.scalingListId = List.range 28 := by
  decide

variable {derivation : Derivation} (mem : derivation ∈ squareDerivations)
  (scalingList : ScalingList)
include mem

theorem listWrites_square :
    listWrites scalingList derivation =
      processWrites (scalingList.scalingListCoef derivation.scalingListId)
        (2 ^ derivation.id.sizeX) (2 ^ derivation.id.sizeX) (squareRatio derivation)
        (squareSide derivation) (scalingList.scalingListDC derivation.scalingListId) := by
  simp only [listWrites, square_of_mem mem, if_true, squareRatio, squareSide]
  rfl

/-- What a square block divides by. -/
theorem divides_of_square (nonzero : NonzeroList scalingList) :
    ∀ write ∈ listWrites scalingList derivation, write.2.Divides := by
  obtain ⟨side, positive, coefNum, coded, hasDC⟩ := squareDerivations_lists derivation mem
  rw [listWrites_square mem, processWrites, if_neg (by simp)]
  intro write member
  rcases List.mem_append.mp member with round | dc
  · obtain ⟨⟨j, i⟩, inside, rfl⟩ := List.mem_map.mp round
    obtain ⟨row, column⟩ := mem_rounds.mp inside
    rw [← side, Nat.mul_comm] at row column
    refine nonzero.coef _ coded _ ?_
    rw [coefNum, Nat.mul_comm (squareSide derivation) (_ / _)]
    exact raster_lt (Nat.div_lt_of_lt_mul column) (Nat.div_lt_of_lt_mul row)
  · split at dc
    · rename_i large
      rw [List.mem_singleton.mp dc]
      exact nonzero.dc _ (hasDC.mp large) coded
    · cases dc

/-- Each coefficient of the coded list is one of them. -/
theorem coeff_mem_listWrites {idx : Nat}
    (inside : idx < ScalingList.coefNum derivation.scalingListId) :
    ∃ place, (place, ListElement.coeff
      (scalingList.scalingListCoef derivation.scalingListId idx)) ∈
        listWrites scalingList derivation := by
  obtain ⟨side, positive, coefNum, -, -⟩ := squareDerivations_lists derivation mem
  rw [listWrites_square mem, processWrites, if_neg (by simp)]
  rw [coefNum] at inside
  obtain ⟨i, column, j, row, rfl⟩ := exists_raster inside
  have scaled {n : Nat} (lt : n < squareSide derivation) :
      n * squareRatio derivation < 2 ^ derivation.id.sizeX := by
    rw [← side]
    exact Nat.mul_lt_mul_of_pos_right lt positive
  have entry := List.mem_map_of_mem (f := fun round : Nat × Nat =>
    (round.1 * 2 ^ derivation.id.sizeX + round.2, ListElement.coeff
      (scalingList.scalingListCoef derivation.scalingListId (squareSide derivation *
        (round.1 / squareRatio derivation) + round.2 / squareRatio derivation))))
    (mem_rounds.mpr ⟨scaled row, scaled column⟩)
  rw [Nat.mul_div_cancel _ positive, Nat.mul_div_cancel _ positive, Nat.mul_comm _ j] at entry
  exact ⟨_, List.mem_append_left _ entry⟩

/-- And so is its DC value. -/
theorem dc_mem_listWrites
    (large : ScalingList.SCALING_LIST_1D_START_16x16 ≤ derivation.scalingListId) :
    (0, ListElement.dc (scalingList.scalingListDC derivation.scalingListId)) ∈
      listWrites scalingList derivation := by
  obtain ⟨-, -, -, -, hasDC⟩ := squareDerivations_lists derivation mem
  rw [listWrites_square mem, processWrites, if_neg (by simp), if_pos (hasDC.mpr large)]
  exact List.mem_append_right _ (List.mem_singleton.mpr rfl)

end Square

/-- What another block divides by. -/
theorem divides_of_rec {derivation : Derivation} (mem : derivation ∈ recDerivations)
    {scalingList : ScalingList} (nonzero : NonzeroList scalingList) :
    ∀ write ∈ listWrites scalingList derivation, write.2.Divides := by
  obtain ⟨size, list⟩ := of_mem_recDerivations mem
  have apart := apart_of_mem mem
  obtain ⟨id, scalingListId⟩ := derivation
  dsimp only at size list apart
  subst list
  have ge := size.largeSideId_ge
  have le := size.largeSideId_le
  have lists := size.listId_lt
  have coded : id.listOf < 28 := by
    unfold MatrixId.listOf
    split <;> omega
  rw [listWrites_rec size scalingList apart, processWrites, if_pos (height_ne_width apart)]
  intro write member
  obtain ⟨⟨j, i⟩, round, written⟩ := List.mem_flatMap.mp member
  obtain ⟨row, column⟩ := mem_rounds.mp round
  rcases mem_roundWrites written with ⟨-, element⟩ | ⟨rfl, large⟩
  · rw [element]
    split
    · trivial
    · refine nonzero.coef _ coded _ ?_
      rw [coefNum_listOf size, listIndex_eq apart]
      exact listPlace_lt row column
  · refine nonzero.dc _ ?_ coded
    have big := (largeOne_gt_iff apart).mp large
    unfold MatrixId.listOf ScalingList.SCALING_LIST_1D_START_16x16
    split <;> omega

/-- Without zeros the quotients are assigned. -/
theorem setMatricesEnc_eq {scalingList : ScalingList} (nonzero : NonzeroList scalingList)
    (matrices : MatrixId → Nat → Nat → Int) :
    setMatricesEnc scalingList matrices =
      .ok (fillMatrices (fun id qp => quotient (quantScale id qp)) scalingList matrices) := by
  refine assignM_eq (fun derivation member old => assignM_eq (fun qp rem matrix => ?_) old) _
  have divides : ∀ write ∈ listWrites scalingList derivation, write.2.Divides := by
    rcases List.mem_append.mp member with square | other
    · exact divides_of_square square scalingList nonzero
    · exact divides_of_rec other nonzero
  exact assignM_eq (fun write here _ =>
    quantElement_eq (quantScale_mem derivation.id (List.mem_range.mp rem))
      (divides write here)) matrix

theorem setScalingList_eq {scalingList : ScalingList} (nonzero : NonzeroList scalingList)
    (quant : Quant) :
    setScalingList scalingList quant = .ok { quant with
      quantCoef := fillMatrices (fun id qp => quotient (quantScale id qp)) scalingList
        quant.quantCoef
      dequantCoef := setMatricesDec scalingList quant.dequantCoef } := by
  rw [setScalingList, setMatricesEnc_eq nonzero]
  rfl

/-- A zero among the divisors stops `setScalingList`. -/
theorem setMatricesEnc_fails {scalingList : ScalingList} {derivation : Derivation}
    (mem : derivation ∈ squareDerivations) {write : Nat × ListElement}
    (here : write ∈ listWrites scalingList derivation) (zero : ¬ write.2.Divides)
    (matrices : MatrixId → Nat → Nat → Int) :
    ∃ message, setMatricesEnc scalingList matrices = .error message := by
  have list (matrix : Nat → Int) :
      ∃ message, xSetScalingListEnc scalingList derivation 0 matrix = .error message := by
    rw [xSetScalingListEnc_eq]
    exact assignM_fails here (fun _ => ⟨_, quantElement_fails zero⟩) matrix
  exact assignM_fails (List.mem_append_left _ mem)
    (assignM_fails (List.mem_range.mpr (Nat.succ_pos 5)) list) matrices

theorem nonzeroList_of_ok {scalingList : ScalingList} {quant quant' : Quant}
    (run : setScalingList scalingList quant = .ok quant') : NonzeroList scalingList := by
  have stops {derivation : Derivation} (mem : derivation ∈ squareDerivations)
      {write : Nat × ListElement} (here : write ∈ listWrites scalingList derivation) :
      write.2.Divides := by
    by_contra zero
    obtain ⟨message, failed⟩ := setMatricesEnc_fails mem here zero quant.quantCoef
    rw [setScalingList, failed] at run
    cases run
  have ofList {scalingListId : Nat} (coded : scalingListId < 28) :
      ∃ derivation ∈ squareDerivations, derivation.scalingListId = scalingListId := by
    have member : scalingListId ∈ squareDerivations.map Derivation.scalingListId := by
      rw [squareDerivations_ids]
      exact List.mem_range.mpr coded
    exact List.mem_map.mp member
  constructor
  · intro scalingListId coded idx inside
    obtain ⟨derivation, mem, rfl⟩ := ofList coded
    obtain ⟨place, here⟩ := coeff_mem_listWrites mem scalingList inside
    exact stops mem here
  · intro scalingListId large coded
    obtain ⟨derivation, mem, rfl⟩ := ofList coded
    exact stops mem (dc_mem_listWrites mem scalingList large)

/-- The matrices of quantisation of a block that has a coded list. -/
theorem quantCoef_entry {id : MatrixId} (size : id.TransformSize)
    (listed : id.largeSideId = 6 → id.luma = true) {qp : Nat} (rem : qp < 6)
    {scalingList : ScalingList} {quant quant' : Quant}
    (run : setScalingList scalingList quant = .ok quant') {j i : Nat} (row : j < id.height)
    (column : i < id.width) :
    quant'.quantCoef id qp (j * id.width + i) = quotient (quantScale id qp)
      (if id.sizeX ≠ id.sizeY ∧ MatrixId.ZeroedOut j i then .zeroOut
        else id.codedElement scalingList j i) := by
  have made := setScalingList_eq (nonzeroList_of_ok run) quant
  obtain rfl := Except.ok.inj (run.symm.trans made)
  exact @fillMatrices_entry (fun id qp => quotient (quantScale id qp)) scalingList
    quant.quantCoef _ size listed qp rem j i row column

/-! ## Every matrix -/

/-- What `setScalingListDec` and `setScalingList` make of a matrix, whatever it held: both make
each element of the same entry of the coded list, which is inside it. -/
structure FullyDerived (scalingList : ScalingList) (id : MatrixId) (qp : Nat) : Prop where
  inside : ∀ j < id.height, ∀ i < id.width, id.listPlace j i < ScalingList.coefNum id.listOf
  dec : ∀ quant : Quant, ∀ j < id.height, ∀ i < id.width,
    (setScalingListDec scalingList quant).dequantCoef id qp (j * id.width + i) =
      dequantElement (invQuantScale id qp) (id.element scalingList j i)
  enc : ∀ quant : Quant, ∃ quant', setScalingList scalingList quant = .ok quant' ∧
    ∀ j < id.height, ∀ i < id.width,
      quantElement (quantScale id qp) (id.element scalingList j i) =
        .ok (quant'.quantCoef id qp (j * id.width + i))

/-- A scaling list with one value. -/
def uniformList (value : Int) : ScalingList where
  disableScalingMatrixForLfnstBlks := false
  scalingListPredModeFlagIsCopy _ := false
  scalingListDC _ := value
  refMatrixId _ := 0
  scalingListPreditorModeFlag _ := false
  scalingListCoef _ _ := value

theorem g_invQuantScales_pos (notPowerOf4 : Bool) {qp : Nat} (rem : qp < 6) :
    0 < g_invQuantScales notPowerOf4 qp := by
  have all : ∀ notPowerOf4 : Bool, ∀ qp : Fin 6, 0 < g_invQuantScales notPowerOf4 qp := by decide
  exact all notPowerOf4 ⟨qp, rem⟩

section Whole

variable {id : MatrixId} (size : id.TransformSize) {qp : Nat} (rem : qp < 6)
  (scalingList : ScalingList)
include size rem

/-- `setScalingListDec` needs no condition on the list. -/
theorem dec_of_listed (derived : id.largeSideId = 6 → id.luma = true ∧ id.sizeX ≠ id.sizeY)
    (quant : Quant) {j i : Nat} (row : j < id.height) (column : i < id.width) :
    (setScalingListDec scalingList quant).dequantCoef id qp (j * id.width + i) =
      dequantElement (invQuantScale id qp) (id.element scalingList j i) := by
  rw [dequantCoef_entry size (fun large => (derived large).1) rem scalingList quant row column,
    element_eq size (fun large => (derived large).2) row column]

theorem enc_of_listed (derived : id.largeSideId = 6 → id.luma = true ∧ id.sizeX ≠ id.sizeY)
    (nonzero : NonzeroList scalingList) (quant : Quant) :
    ∃ quant', setScalingList scalingList quant = .ok quant' ∧
      ∀ j < id.height, ∀ i < id.width,
        quantElement (quantScale id qp) (id.element scalingList j i) =
          .ok (quant'.quantCoef id qp (j * id.width + i)) := by
  refine ⟨_, setScalingList_eq nonzero quant, fun j row i column => ?_⟩
  have entry := quantCoef_entry size (fun large => (derived large).1) rem
    (setScalingList_eq nonzero quant) row column
  rw [element_eq size (fun large => (derived large).2) row column] at entry
  refine (quantElement_eq (quantScale_mem id rem) ?_).trans (congrArg Except.ok entry.symm)
  unfold MatrixId.element MatrixId.codedElement
  have lists := size.listId_lt
  have le := size.largeSideId_le
  have ge := size.largeSideId_ge
  have coded : id.listOf < 28 := by
    unfold MatrixId.listOf
    split <;> omega
  split
  · trivial
  · split
    · rename_i first
      refine nonzero.dc _ ?_ coded
      unfold MatrixId.listOf ScalingList.SCALING_LIST_1D_START_16x16
      split <;> omega
    · refine nonzero.coef _ coded _ ?_
      rw [coefNum_listOf size]
      exact listPlace_lt row column

/-- The matrix of a transform block is derived element by element, unless a side has 64 samples
and the block is chroma, which has no coded list, or square, which is not zeroed out; and
`setScalingList` comes to an end if nothing in the list is zero. -/
theorem fullyDerived_iff :
    FullyDerived scalingList id qp ↔
      (id.largeSideId = 6 → id.luma = true ∧ id.sizeX ≠ id.sizeY) ∧ NonzeroList scalingList := by
  constructor
  · rintro ⟨-, dec, enc⟩
    obtain ⟨quant', run, -⟩ := enc ⟨fun _ _ _ => 0, fun _ _ _ => 0, true⟩
    have nonzero := nonzeroList_of_ok run
    refine ⟨fun large => ?_, nonzero⟩
    have luma : id.luma = true := by
      by_contra chroma
      -- what the matrix held before is still there
      have left (value : Int) := dec ⟨fun _ _ _ => 0, fun _ _ _ => value, true⟩
        0 (Nat.two_pow_pos _) 0 (Nat.two_pow_pos _)
      simp only [dequantCoef_of_chroma large (by simpa using chroma)] at left
      exact absurd ((left 0).trans (left 1).symm) (by decide)
    refine ⟨luma, fun square => ?_⟩
    have sides : id.sizeX = 6 := by
      unfold MatrixId.largeSideId at large
      omega
    have row : 0 < id.height := Nat.two_pow_pos _
    have column : 32 < id.width := by
      rw [MatrixId.width, sides]
      decide
    -- the first element beyond 32 columns is made of a coefficient, which is not zero
    have entry := dec ⟨fun _ _ _ => 0, fun _ _ _ => 0, true⟩ 0 row 32 column
    have beyond : MatrixId.ZeroedOut 0 32 := Or.inr le_rfl
    rw [dequantCoef_entry size (fun _ => luma) rem _ _ row column, if_neg fun all => all.1 square,
      MatrixId.element, if_pos beyond, MatrixId.codedElement, if_neg (by omega)] at entry
    have coded : id.listOf < 28 := by
      have lists := size.listId_lt
      unfold MatrixId.listOf
      split <;> omega
    have coefficient := nonzero.coef id.listOf coded (id.listPlace 0 32) (by
      rw [coefNum_listOf size]
      exact listPlace_lt row column)
    have positive := g_invQuantScales_pos (blockIsNotPowerOf4 id.width id.height) rem
    rcases Int.mul_eq_zero.mp entry with scale | zero
    · exact absurd scale positive.ne'
    · exact coefficient zero
  · rintro ⟨derived, nonzero⟩
    refine ⟨fun j row i column => ?_, fun quant j row i column =>
      dec_of_listed size rem scalingList derived quant row column,
      fun quant => enc_of_listed size rem scalingList derived nonzero quant⟩
    rw [coefNum_listOf size]
    exact listPlace_lt row column

end Whole

/-- A list whose coefficients are all different. -/
def rampList : ScalingList where
  disableScalingMatrixForLfnstBlks := false
  scalingListPredModeFlagIsCopy _ := false
  scalingListDC scalingListId := 100 + scalingListId
  refMatrixId _ := 0
  scalingListPreditorModeFlag _ := false
  scalingListCoef scalingListId idx := 8 + scalingListId + idx

/-- A column of luma that ISP makes, and a luma block with a side of 64 samples. -/
theorem fullyDerived_1x16_64x32 :
    FullyDerived rampList ⟨0, 4, 0⟩ 1 ∧ FullyDerived rampList ⟨6, 5, 3⟩ 5 := by
  have nonzero : NonzeroList rampList := by
    constructor
    · intro scalingListId _ idx _
      simp only [rampList]
      omega
    · intro scalingListId _ coded
      simp only [rampList]
      omega
  exact ⟨(fullyDerived_iff ⟨by decide, by decide, by decide, by decide⟩ (by decide) _).mpr
      ⟨by decide, nonzero⟩,
    (fullyDerived_iff ⟨by decide, by decide, by decide, by decide⟩ (by decide) _).mpr
      ⟨by decide, nonzero⟩⟩

/-- The matrix of a Cb block of 64x64 samples still holds what it did, whatever the list; and a
list with a zero has no matrices of quantisation. -/
theorem chroma_64x64_not_derived :
    MatrixId.TransformSize ⟨6, 6, 1⟩ ∧ ¬ FullyDerived (uniformList 16) ⟨6, 6, 1⟩ 0 ∧
      (setScalingListDec (uniformList 16) ⟨fun _ _ _ => 0, fun _ _ _ => 7, true⟩).dequantCoef
        ⟨6, 6, 1⟩ 0 0 = 7 ∧
      MatrixId.TransformSize ⟨2, 2, 0⟩ ∧ ¬ FullyDerived (uniformList 0) ⟨2, 2, 0⟩ 0 := by
  refine ⟨⟨by decide, by decide, by decide, by decide⟩, fun derived => ?_, ?_,
    ⟨by decide, by decide, by decide, by decide⟩, fun derived => ?_⟩
  · have entry := derived.dec ⟨fun _ _ _ => 0, fun _ _ _ => 7, true⟩
      0 (by decide) 0 (by decide)
    rw [dequantCoef_of_chroma rfl rfl] at entry
    exact absurd entry (by decide)
  · rw [dequantCoef_of_chroma rfl rfl]
  · obtain ⟨quant', run, -⟩ := derived.enc ⟨fun _ _ _ => 0, fun _ _ _ => 7, true⟩
    exact (nonzeroList_of_ok run).coef 0 (by decide) 0 (by decide) rfl

end Quant

end Vtm
