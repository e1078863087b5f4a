import Vtm.Encoder.PPS
import Vtm.Decoder.PPS
import Vtm.RoundTrip.VLC
import Mathlib.Algebra.Order.BigOperators.Group.List

/-!
# Picture parameter set: layout round trip

`ValidLayout` says when the layout members of a PPS are consistent with the
picture, and `SameLayout` when two PPS describe the same layout. What `codePPS`
writes for a valid layout is read back as the same layout exactly when
`ReadsBack` holds: uniform tiles come with brick splitting, and slices of single
bricks with unsplit tiles.
-/

namespace Vtm.RoundTrip.PPS

open Vtm.Std Vtm.HLSWriter Vtm.HLSyntaxReader VLC

/-- Positive sizes that add up to `total`. -/
structure Fills (sizes : List Nat) (total : Nat) : Prop where
  positive : ∀ size ∈ sizes, 0 < size
  sum : sizes.sum = total

/-- The brick members of a tile of `height` rows are consistent with it. -/
structure ValidBricks (pps : PPS) (i height : Nat) : Prop where
  flat : height ≤ 1 → pps.brickSplitFlag.getD i false = false
  low : pps.brickSplitFlag.getD i false = true → height ≤ 2 →
    pps.uniformBrickSpacingFlag.getD i false = true
  uniform : pps.brickSplitFlag.getD i false = true →
    pps.uniformBrickSpacingFlag.getD i false = true → pps.brickHeightMinus1.getD i 0 + 1 < height
  explicitRows : pps.brickSplitFlag.getD i false = true →
    pps.uniformBrickSpacingFlag.getD i false = false →
    (pps.brickRowHeightMinus1.getD i []).length = pps.numBrickRowsMinus2.getD i 0 + 1 ∧
      ((pps.brickRowHeightMinus1.getD i []).map (· + 1)).sum < height

/-- The layout members of a PPS are consistent with each other and with the
picture size in CTUs. -/
structure ValidLayout (sps : SPS) (pps : PPS) : Prop where
  area : pps.picWidthInCtus sps * pps.picHeightInCtus sps < 2 ^ 31
  columns : Fills (pps.tileColWidth sps) (pps.picWidthInCtus sps)
  rows : Fills (pps.tileRowHeights sps) (pps.picHeightInCtus sps)
  uniformColumns : pps.uniformTileSpacingFlag = true →
    pps.tileColsWidthMinus1 < pps.picWidthInCtus sps
  uniformRows : pps.uniformTileSpacingFlag = true →
    pps.tileRowsHeightMinus1 < pps.picHeightInCtus sps
  numColumns : (pps.tileColWidth sps).length = pps.numTileColumnsMinus1 + 1
  numRows : (pps.tileRowHeights sps).length = pps.numTileRowsMinus1 + 1
  numTiles : pps.numTilesInPic = (pps.numTileColumnsMinus1 + 1) * (pps.numTileRowsMinus1 + 1)
  single : pps.singleTileInPicFlag = true → pps.numTilesInPic = 1 ∧
    pps.brickSplittingPresentFlag = false
  heights : pps.brickSplittingPresentFlag = true → pps.tileHeight = pps.tileHeights sps
  bricks : pps.brickSplittingPresentFlag = true → ∀ i height,
    (pps.tileHeights sps)[i]? = some height → ValidBricks pps i height
  raster : pps.rectSliceFlag = false → pps.numSlicesInPicMinus1 = 0
  slices : pps.rectSliceFlag = true → ∃ numSlices : Nat, numSlices < 2 ^ 31 ∧
    pps.numSlicesInPicMinus1 = numSlices ∧ pps.bottomRightBrickIdx.length = numSlices + 1 ∧
    pps.sliceId.length = numSlices + 1
  singleBricks : pps.singleBrickPerSliceFlag = true →
    pps.bottomRightBrickIdx = List.range (pps.numBricks sps)
  indices : ∀ index ∈ pps.bottomRightBrickIdx, index < 2 ^ 31
  ids : ∀ id ∈ pps.sliceId, id < 2 ^ 31
  idLength : pps.signalledSliceIdLengthMinus1 < 2 ^ 31
  defaultIds : pps.rectSliceFlag = true → pps.signalledSliceIdFlag = false →
    pps.sliceId = List.range pps.sliceId.length

/-- Two PPS describe the same tiles, bricks and slices. -/
structure SameLayout (sps : SPS) (parsed pps : PPS) : Prop where
  singleTile : parsed.singleTileInPicFlag = pps.singleTileInPicFlag
  spacing : pps.singleTileInPicFlag = false →
    parsed.uniformTileSpacingFlag = pps.uniformTileSpacingFlag
  columns : parsed.tileColWidth sps = pps.tileColWidth sps
  rows : parsed.tileRowHeights sps = pps.tileRowHeights sps
  numTiles : parsed.numTilesInPic = pps.numTilesInPic
  splitting : parsed.brickSplittingPresentFlag = pps.brickSplittingPresentFlag
  bricks : ∀ i < pps.numTilesInPic, parsed.brickSplit i = pps.brickSplit i
  singleBrick : parsed.singleBrickPerSliceFlag = pps.singleBrickPerSliceFlag
  rect : parsed.rectSliceFlag = pps.rectSliceFlag
  numSlices : parsed.numSlicesInPicMinus1 = pps.numSlicesInPicMinus1
  indices : pps.rectSliceFlag = true →
    parsed.bottomRightBricks = pps.bottomRightBrickIdx.map fun index : Nat => (index : Int)
  ids : pps.rectSliceFlag = true → parsed.sliceId = pps.sliceId

/-- The layouts the reader recovers. -/
def ReadsBack (pps : PPS) : Prop :=
  pps.singleTileInPicFlag = true ∨
    ((pps.uniformTileSpacingFlag = true → pps.brickSplittingPresentFlag = true) ∧
      (pps.singleBrickPerSliceFlag = true → ∀ i < pps.numTilesInPic, pps.brickSplit i = .whole))

/-- The PPS the reader starts with, its picture size already read. -/
def freshPPS (pps : PPS) : PPS :=
  { picWidthInLumaSamples := pps.picWidthInLumaSamples
    picHeightInLumaSamples := pps.picHeightInLumaSamples }

/-- The same with `single_tile_in_pic_flag` read. -/
def startedPPS (pps : PPS) (singleTileInPicFlag : Bool) : PPS :=
  { freshPPS pps with singleTileInPicFlag }

/-! ## What the reader alone guarantees -/

section Reader

variable {α β : Type}

theorem bind_run_ok {first : BitReader α} {next : α → BitReader β} {s s' : InputBitstream} {b : β}
    (run : (first >>= next) s = .ok (b, s')) :
    ∃ a t, first s = .ok (a, t) ∧ next a t = .ok (b, s') := by
  obtain ⟨⟨a, t⟩, ran, rest⟩ := bind_eq_ok_iff.mp run
  exact ⟨a, t, ran, rest⟩

theorem pure_run_ok {a b : α} {s s' : InputBitstream}
    (run : (pure a : BitReader α) s = .ok (b, s')) : b = a := by
  cases run
  rfl

/-- A stage that leaves the tile members alone. -/
structure TileFrame (before after : PPS) : Prop where
  singleTile : after.singleTileInPicFlag = before.singleTileInPicFlag
  uniform : after.uniformTileSpacingFlag = before.uniformTileSpacingFlag
  splitting : after.brickSplittingPresentFlag = before.brickSplittingPresentFlag
  numTiles : after.numTilesInPic = before.numTilesInPic

theorem TileFrame.trans {first second third : PPS} (left : TileFrame first second)
    (right : TileFrame second third) : TileFrame first third :=
  ⟨right.singleTile.trans left.singleTile, right.uniform.trans left.uniform,
    right.splitting.trans left.splitting, right.numTiles.trans left.numTiles⟩

variable {pps parsed : PPS} {s s' : InputBitstream}

theorem parseNumTilesInPic_run (run : parseNumTilesInPic pps s = .ok (parsed, s'))
    (uniform : parsed.uniformTileSpacingFlag = true)
    (absent : parsed.brickSplittingPresentFlag = false) : parsed.numTilesInPic = 0 := by
  obtain ⟨present, _, _, run⟩ := bind_run_ok run
  obtain ⟨numTiles, _, counted, run⟩ := bind_run_ok run
  rw [pure_run_ok run] at uniform absent ⊢
  simp only at uniform absent
  unfold readNumTilesInPic at counted
  simp only [uniform, absent, if_true, Bool.false_eq_true, if_false] at counted
  exact pure_run_ok counted

theorem parseBricks_run {sps : SPS} (run : parseBricks sps pps s = .ok (parsed, s')) :
    TileFrame pps parsed := by
  unfold parseBricks at run
  split at run
  · obtain ⟨tiles, _, _, run⟩ := bind_run_ok run
    rw [pure_run_ok run]
    exact ⟨rfl, rfl, rfl, rfl⟩
  · rw [pure_run_ok run]
    exact ⟨rfl, rfl, rfl, rfl⟩

/-- Slices of single bricks are counted as tiles. -/
theorem parseSlices_run (run : parseSlices pps s = .ok (parsed, s')) :
    TileFrame pps parsed ∧ (parsed.singleBrickPerSliceFlag = true → parsed.rectSliceFlag = true ∧
      parsed.numSlicesInPicMinus1 = (parsed.numTilesInPic : Int) - 1) := by
  obtain ⟨single, _, _, run⟩ := bind_run_ok run
  obtain ⟨rect, _, inferred, run⟩ := bind_run_ok run
  simp only at run
  split at run
  · next explicit =>
      obtain ⟨numSlices, _, _, run⟩ := bind_run_ok run
      obtain ⟨codeLen, _, _, run⟩ := bind_run_ok run
      obtain ⟨deltas, _, _, run⟩ := bind_run_ok run
      rw [pure_run_ok run]
      refine ⟨⟨rfl, rfl, rfl, rfl⟩, fun isSingle => ?_⟩
      simp only at isSingle
      simp [isSingle] at explicit
  · split at run
    · next both =>
        rw [pure_run_ok run]
        simp only [Bool.and_eq_true] at both
        exact ⟨⟨rfl, rfl, rfl, rfl⟩, fun _ => ⟨both.1, rfl⟩⟩
    · next notSingle =>
        rw [pure_run_ok run]
        refine ⟨⟨rfl, rfl, rfl, rfl⟩, fun isSingle => ?_⟩
        -- a single brick per slice infers rectangular slices
        simp only at isSingle
        simp only [isSingle, readFlagIf, Bool.not_true, Bool.false_eq_true, if_false] at inferred
        rw [pure_run_ok inferred, isSingle] at notSingle
        simp at notSingle

theorem parseLoopFilterFlags_run (run : parseLoopFilterFlags pps s = .ok (parsed, s')) :
    ∃ bricks slices, parsed = { pps with
      loopFilterAcrossBricksEnabledFlag := bricks
      loopFilterAcrossSlicesEnabledFlag := slices } := by
  obtain ⟨bricks, _, _, run⟩ := bind_run_ok run
  obtain ⟨slices, _, _, run⟩ := bind_run_ok run
  exact ⟨bricks, slices, pure_run_ok run⟩

theorem parseSliceIds_run (run : parseSliceIds pps s = .ok (parsed, s')) :
    ∃ flag length ids, parsed = { pps with
      signalledSliceIdFlag := flag
      signalledSliceIdLengthMinus1 := length
      sliceId := ids } := by
  unfold parseSliceIds at run
  split at run
  · obtain ⟨flag, _, _, run⟩ := bind_run_ok run
    split at run
    · obtain ⟨length, _, _, run⟩ := bind_run_ok run
      obtain ⟨ids, _, _, run⟩ := bind_run_ok run
      exact ⟨flag, length, _, pure_run_ok run⟩
    · obtain ⟨_, _, _, run⟩ := bind_run_ok run
      exact ⟨flag, _, _, pure_run_ok run⟩
  · exact ⟨_, _, _, pure_run_ok run⟩

/-- Whatever is read for a picture with several tiles, uniform spacing without
brick splitting leaves no tiles, and slices of single bricks are counted as tiles. -/
theorem parsePPSLayout_run {sps : SPS} (run : parsePPSLayout sps pps s = .ok (parsed, s'))
    (several : parsed.singleTileInPicFlag = false) :
    (parsed.uniformTileSpacingFlag = true → parsed.brickSplittingPresentFlag = false →
      parsed.numTilesInPic = 0) ∧
    (parsed.singleBrickPerSliceFlag = true → parsed.rectSliceFlag = true ∧
      parsed.numSlicesInPicMinus1 = (parsed.numTilesInPic : Int) - 1) := by
  obtain ⟨single, _, _, run⟩ := bind_run_ok run
  obtain ⟨sliced, _, slicing, run⟩ := bind_run_ok run
  obtain ⟨_, _, _, rfl⟩ := parseSliceIds_run run
  unfold parseSlicing at slicing
  cases single with
  | true =>
      rw [pure_run_ok slicing] at several
      exact absurd several (by simp [setSingleTile])
  | false =>
      obtain ⟨spaced, _, _, slicing⟩ := bind_run_ok slicing
      obtain ⟨counted, _, counting, slicing⟩ := bind_run_ok slicing
      obtain ⟨split, _, splitting, slicing⟩ := bind_run_ok slicing
      obtain ⟨cut, _, cutting, slicing⟩ := bind_run_ok slicing
      obtain ⟨_, _, rfl⟩ := parseLoopFilterFlags_run slicing
      obtain ⟨frame, slices⟩ := parseSlices_run cutting
      have whole := (parseBricks_run splitting).trans frame
      refine ⟨fun uniform absent => ?_, slices⟩
      exact whole.numTiles.trans (parseNumTilesInPic_run counting
        (whole.uniform.symm.trans uniform) (whole.splitting.symm.trans absent))

end Reader

/-! ## Counting bricks -/

theorem length_uniformSizes_pos (size fuel total : Nat) :
    0 < (uniformSizes size fuel total).length := by
  cases fuel with
  | zero => simp [uniformSizes]
  | succ fuel =>
      rw [uniformSizes]
      split <;> simp

/-- A tile is one brick only if it is not split. -/
theorem whole_of_one_brick {pps : PPS} {i height : Nat} (valid : pps.brickSplittingPresentFlag = true →
    ValidBricks pps i height) (one : ((pps.brickSplit i).heights height).length = 1) :
    pps.brickSplit i = .whole := by
  unfold PPS.brickSplit at one ⊢
  split at one
  · next split =>
      simp only [Bool.and_eq_true] at split
      have bricks := valid split.1
      exfalso
      cases spacing : pps.uniformBrickSpacingFlag.getD i false with
      | true =>
          have room := bricks.uniform split.2 spacing
          obtain ⟨rest, rfl⟩ : ∃ rest, height = rest + 1 := ⟨height - 1, by omega⟩
          simp only [spacing, if_true, PPS.BrickSplit.heights] at one
          rw [uniformSizes, if_pos room, List.length_cons] at one
          have more := length_uniformSizes_pos (pps.brickHeightMinus1.getD i 0 + 1) rest
            (rest + 1 - (pps.brickHeightMinus1.getD i 0 + 1))
          omega
      | false =>
          have rows := (bricks.explicitRows split.2 spacing).1
          simp only [spacing, Bool.false_eq_true, if_false, PPS.BrickSplit.heights,
            PPS.explicitSizes, List.length_append, List.length_map, List.length_take,
            List.length_singleton, rows] at one
          omega
  · next unsplit => rw [if_neg unsplit]

theorem heights_length_pos (split : PPS.BrickSplit) (height : Nat) :
    1 ≤ (split.heights height).length := by
  cases split with
  | whole => simp [PPS.BrickSplit.heights]
  | uniform heightMinus1 => exact length_uniformSizes_pos _ _ _
  | explicit rows => simp [PPS.BrickSplit.heights, PPS.explicitSizes]

/-- Numbers above zero that add up to their count are all one. -/
theorem eq_one_of_sum (values : List Nat) (positive : ∀ value ∈ values, 1 ≤ value)
    (total : values.sum = values.length) : ∀ value ∈ values, value = 1 := by
  induction values with
  | nil => simp
  | cons first rest ih =>
      have atLeast : rest.length ≤ rest.sum := by
        have bounded := List.card_nsmul_le_sum rest 1 fun value member =>
          positive value (by simp [member])
        simpa using bounded
      have firstPos := positive first (by simp)
      simp only [List.sum_cons, List.length_cons] at total
      intro value member
      rcases List.mem_cons.mp member with rfl | inRest
      · omega
      · exact ih (fun other inside => positive other (by simp [inside])) (by omega) value inRest

theorem length_tileHeights {sps : SPS} {pps : PPS} (valid : ValidLayout sps pps) :
    (pps.tileHeights sps).length = pps.numTilesInPic := by
  have constant : ((pps.tileRowHeights sps).map fun height =>
      (List.replicate (pps.tileColWidth sps).length height).length) =
      List.replicate (pps.tileRowHeights sps).length (pps.tileColWidth sps).length := by
    simp [List.map_const']
  rw [PPS.tileHeights, List.length_flatMap, constant, List.sum_replicate_nat, valid.numRows,
    valid.numColumns, valid.numTiles, Nat.mul_comm]

/-- As many bricks as tiles means that no tile is split. -/
theorem whole_of_numBricks {sps : SPS} {pps : PPS} (valid : ValidLayout sps pps)
    (equal : pps.numBricks sps = pps.numTilesInPic) (i : Nat) (inside : i < pps.numTilesInPic) :
    pps.brickSplit i = .whole := by
  have length := length_tileHeights valid
  have here : i < (pps.tileHeights sps).length := by omega
  have ones := eq_one_of_sum ((pps.tileHeights sps).mapIdx fun i height =>
    ((pps.brickSplit i).heights height).length) ?_ ?_
  · refine whole_of_one_brick (fun present => ?_) (ones _ (List.mem_mapIdx.mpr ⟨i, here, rfl⟩))
    exact valid.bricks present i _ (List.getElem?_eq_getElem here)
  · intro value member
    obtain ⟨j, _, rfl⟩ := List.mem_mapIdx.mp member
    exact heights_length_pos _ _
  · rw [List.length_mapIdx, length]
    exact equal

/-! ## Writer and reader in lock step -/

section Codes

variable {fifo : List UInt8} {locations : List Nat}

theorem word_natCast {value : Nat} (bound : value < 2 ^ 32) : word value = value := by
  unfold word
  omega

theorem codes_flagIf (present flag inferred : Bool) (agrees : present = false → inferred = flag) :
    Codes True outputView (inputView fifo locations) (writeFlagIf present flag)
      (readFlagIf present inferred) (fun _ read => read = flag) := by
  unfold writeFlagIf readFlagIf
  cases present with
  | true => exact codes_bool flag
  | false => exact Codes.pure (agrees rfl)

theorem codes_size {size : Nat} (positive : 0 < size) (bound : size < 2 ^ 31) :
    Codes True outputView (inputView fifo locations)
      (VLCWriter.xWriteUvlc (word ((size : Int) - 1))) readSize (fun _ read => read = size) := by
  have code : word ((size : Int) - 1) = size - 1 := by
    unfold word
    omega
  rw [code]
  refine Codes.readerMap (fun uiCode => uiCode + 1) (codes_uvlc (by omega)) ?_
  rintro _ _ rfl
  omega

/-- The explicit sizes of `count` columns or rows. -/
theorem codes_sizes {sizes : List Nat} {count : Nat}
    (bounds : ∀ i < count, 0 < sizes.getD i 0 ∧ sizes.getD i 0 < 2 ^ 31) :
    Codes True outputView (inputView fifo locations)
      ((List.range count).foldlM
        (fun _ i => VLCWriter.xWriteUvlc (word ((sizes.getD i 0 : Nat) - 1))) ())
      (readVector count fun _ => readSize)
      (fun _ read => read = (List.range count).map fun i => sizes.getD i 0) := by
  refine Codes.collect (fun i => sizes.getD i 0) _ fun i member => ?_
  obtain ⟨positive, bound⟩ := bounds i (List.mem_range.mp member)
  exact codes_size positive bound

/-- What `parseTileSpacing` stores. -/
@[grind =] def spaced (pps start : PPS) : PPS :=
  if pps.uniformTileSpacingFlag then
    { start with
      uniformTileSpacingFlag := true
      tileColsWidthMinus1 := pps.tileColsWidthMinus1
      tileRowsHeightMinus1 := pps.tileRowsHeightMinus1 }
  else
    { start with
      uniformTileSpacingFlag := false
      numTileColumnsMinus1 := pps.numTileColumnsMinus1
      numTileRowsMinus1 := pps.numTileRowsMinus1
      tileColumnWidth :=
        if pps.numTileColumnsMinus1 > 0 then
          (List.range pps.numTileColumnsMinus1).map fun i => pps.tileColumnWidth.getD i 0
        else start.tileColumnWidth
      tileRowHeight :=
        if pps.numTileRowsMinus1 > 0 then
          (List.range pps.numTileRowsMinus1).map fun i => pps.tileRowHeight.getD i 0
        else start.tileRowHeight }

/-- The sizes the writer codes are words. -/
structure TileWords (pps : PPS) : Prop where
  uniformColumns : pps.uniformTileSpacingFlag = true → pps.tileColsWidthMinus1 < 2 ^ 31
  uniformRows : pps.uniformTileSpacingFlag = true → pps.tileRowsHeightMinus1 < 2 ^ 31
  numColumns : pps.numTileColumnsMinus1 < 2 ^ 31
  numRows : pps.numTileRowsMinus1 < 2 ^ 31
  columns : pps.uniformTileSpacingFlag = false → ∀ i < pps.numTileColumnsMinus1,
    0 < pps.tileColumnWidth.getD i 0 ∧ pps.tileColumnWidth.getD i 0 < 2 ^ 31
  rows : pps.uniformTileSpacingFlag = false → ∀ i < pps.numTileRowsMinus1,
    0 < pps.tileRowHeight.getD i 0 ∧ pps.tileRowHeight.getD i 0 < 2 ^ 31

theorem codes_tileSpacing {pps : PPS} (words : TileWords pps) (start : PPS) :
    Codes True outputView (inputView fifo locations) (codeTileSpacing pps)
      (parseTileSpacing start) (fun _ parsed => parsed = spaced pps start) := by
  unfold codeTileSpacing parseTileSpacing
  refine (codes_bool _).bind ?_
  rintro _ _ rfl
  unfold spaced
  cases uniform : pps.uniformTileSpacingFlag with
  | true =>
      simp only [if_true]
      have columnsBound := words.uniformColumns uniform
      have rowsBound := words.uniformRows uniform
      refine (codes_uvlc (by omega)).bind ?_
      rintro _ _ rfl
      refine Codes.readerMap _ (codes_uvlc (by omega)) ?_
      rintro _ _ rfl
      rfl
  | false =>
      simp only [Bool.false_eq_true, if_false]
      have columnsBound := words.numColumns
      have rowsBound := words.numRows
      unfold parseExplicitTiles
      refine (codes_uvlc (by omega)).bind ?_
      rintro _ _ rfl
      refine (codes_uvlc (by omega)).bind ?_
      rintro _ _ rfl
      refine Codes.writerCheck (Or.inl trivial) fun several => ?_
      refine Codes.readerStep (Accepts.check _ several) ?_
      refine (codes_sizes (words.columns uniform)).bind ?_
      rintro _ _ rfl
      refine (codes_sizes (words.rows uniform)).readerAfter ?_
      rintro _ _ rfl
      have explicit : ¬ (pps.numTileColumnsMinus1 + pps.numTileRowsMinus1 = 0) := by
        intro none
        apply several
        rw [show pps.numTileColumnsMinus1 = 0 by omega, show pps.numTileRowsMinus1 = 0 by omega]
        decide
      exact ⟨_, (Accepts.check _ explicit).bind (Accepts.pure _), rfl⟩

/-- What `parseNumTilesInPic` stores when it counts every tile. -/
theorem codes_numTilesInPic {pps start : PPS} {numTilesInPic : Nat}
    (reads : pps.uniformTileSpacingFlag = true → pps.brickSplittingPresentFlag = true)
    (positive : 0 < numTilesInPic) (bound : numTilesInPic < 2 ^ 31)
    (spacing : start.uniformTileSpacingFlag = pps.uniformTileSpacingFlag)
    (explicit : pps.uniformTileSpacingFlag = false →
      (start.numTileColumnsMinus1 + 1) * (start.numTileRowsMinus1 + 1) = numTilesInPic) :
    Codes True outputView (inputView fifo locations) (codeNumTilesInPic pps numTilesInPic)
      (parseNumTilesInPic start) (fun _ parsed => parsed = { start with
        brickSplittingPresentFlag := pps.brickSplittingPresentFlag
        numTilesInPic }) := by
  unfold codeNumTilesInPic parseNumTilesInPic
  refine (codes_bool _).bind ?_
  rintro _ _ rfl
  refine Codes.writerCheck (Or.inl trivial) fun _ => ?_
  unfold readNumTilesInPic
  simp only [spacing]
  cases uniform : pps.uniformTileSpacingFlag with
  | true =>
      simp only [reads uniform, Bool.and_true, if_true]
      have code : word ((numTilesInPic : Int) - 1) = numTilesInPic - 1 := by
        unfold word
        omega
      rw [← code]
      refine Codes.readerMap _ (codes_size positive bound) ?_
      rintro _ _ rfl
      rfl
  | false =>
      simp only [Bool.false_and, Bool.false_eq_true, if_false]
      rw [explicit uniform]
      exact Codes.pure rfl

/-- What `parseTileBricks` returns. -/
def tileBricks (pps : PPS) (i : Nat) : TileBricks :=
  if pps.brickSplitFlag.getD i false then
    if pps.uniformBrickSpacingFlag.getD i false then
      { brickSplitFlag := true
        uniformBrickSpacingFlag := true
        brickHeightMinus1 := pps.brickHeightMinus1.getD i 0 }
    else
      { brickSplitFlag := true
        numBrickRowsMinus2 := pps.numBrickRowsMinus2.getD i 0
        brickRowHeightMinus1 := (List.range (pps.numBrickRowsMinus2.getD i 0 + 1)).map fun j =>
          (pps.brickRowHeightMinus1.getD i []).getD j 0 }
  else {}

/-- Every row height and the number of rows are below the sum they belong to. -/
theorem rows_bound {rows : List Nat} {height : Nat} (room : (rows.map (· + 1)).sum < height) :
    rows.length < height ∧ ∀ j, rows.getD j 0 < height := by
  induction rows generalizing height with
  | nil => exact ⟨by simpa using room, fun j => by simpa using room⟩
  | cons first rest ih =>
      simp only [List.map_cons, List.sum_cons] at room
      obtain ⟨few, small⟩ := ih (show (rest.map (· + 1)).sum < height - (first + 1) by omega)
      refine ⟨by simp only [List.length_cons]; omega, fun j => ?_⟩
      cases j with
      | zero => simp only [List.getD_cons_zero]; omega
      | succ j =>
          have bound := small j
          simp only [List.getD_cons_succ]
          omega

theorem codes_tileBricks {pps : PPS} {i height : Nat} (valid : ValidBricks pps i height)
    (same : pps.tileHeight.getD i 0 = height) (bound : height < 2 ^ 31) :
    Codes True outputView (inputView fifo locations) (codeTileBricks pps i)
      (parseTileBricks height) (fun _ read => read = tileBricks pps i) := by
  unfold codeTileBricks parseTileBricks
  rw [same]
  refine (codes_flagIf _ _ _ fun low => ?_).bind ?_
  · exact (valid.flat (by simpa using low)).symm
  rintro _ _ rfl
  unfold tileBricks
  cases split : pps.brickSplitFlag.getD i false with
  | false =>
      simp only [Bool.false_eq_true, if_false]
      exact Codes.pure rfl
  | true =>
      simp only [if_true]
      unfold codeBrickHeights parseBrickHeights
      rw [same]
      refine (codes_flagIf _ _ _ fun low => ?_).bind ?_
      · exact (valid.low split (by simpa using low)).symm
      rintro _ _ rfl
      cases spacing : pps.uniformBrickSpacingFlag.getD i false with
      | true =>
          simp only [if_true]
          have room := valid.uniform split spacing
          refine Codes.readerMap _ (codes_uvlc (by omega)) ?_
          rintro _ _ rfl
          rfl
      | false =>
          simp only [Bool.false_eq_true, if_false]
          obtain ⟨length, room⟩ := valid.explicitRows split spacing
          obtain ⟨few, small⟩ := rows_bound room
          refine (codes_uvlc (by omega)).bind ?_
          rintro _ _ rfl
          refine Codes.readerMap _ (Codes.collect
            (fun j => (pps.brickRowHeightMinus1.getD i []).getD j 0) _ fun j _ => ?_) ?_
          · have rowBound := small j
            exact codes_uvlc (by omega)
          · rintro _ _ rfl
            rfl

/-- What `parseBricks` stores. -/
@[grind =] def bricked (pps : PPS) (heights : List Nat) (start : PPS) : PPS :=
  if pps.brickSplittingPresentFlag then
    let tiles := (List.range start.numTilesInPic).map (tileBricks pps)
    { start with
      tileHeight := heights
      brickSplitFlag := tiles.map (·.brickSplitFlag)
      uniformBrickSpacingFlag := tiles.map (·.uniformBrickSpacingFlag)
      brickHeightMinus1 := tiles.map (·.brickHeightMinus1)
      numBrickRowsMinus2 := tiles.map (·.numBrickRowsMinus2)
      brickRowHeightMinus1 := tiles.map (·.brickRowHeightMinus1) }
  else start

/-- The tile heights `parseBricks` computes. -/
def readHeights (sps : SPS) (start : PPS) : List Nat :=
  if start.uniformTileSpacingFlag then uniformTileHeight sps start
  else explicitTileHeight sps start

theorem codes_bricks {sps : SPS} {pps start : PPS} {numTilesInPic : Nat}
    (numTiles : start.numTilesInPic = numTilesInPic)
    (present : start.brickSplittingPresentFlag = pps.brickSplittingPresentFlag)
    (heights : pps.brickSplittingPresentFlag = true → readHeights sps start = pps.tileHeight)
    (valid : pps.brickSplittingPresentFlag = true → ∀ i < numTilesInPic,
      ValidBricks pps i (pps.tileHeight.getD i 0) ∧ pps.tileHeight.getD i 0 < 2 ^ 31) :
    Codes True outputView (inputView fifo locations) (codeBricks pps numTilesInPic)
      (parseBricks sps start) (fun _ parsed => parsed = bricked pps pps.tileHeight start) := by
  subst numTiles
  unfold codeBricks parseBricks bricked
  rw [present]
  cases splitting : pps.brickSplittingPresentFlag with
  | false =>
      simp only [Bool.false_eq_true, if_false]
      exact Codes.pure rfl
  | true =>
      have computed := heights splitting
      unfold readHeights at computed
      simp only [if_true, computed]
      refine Codes.readerMap _ (Codes.collect (tileBricks pps) _ fun i member => ?_) ?_
      · obtain ⟨bricks, bound⟩ := valid splitting i (List.mem_range.mp member)
        exact codes_tileBricks bricks rfl bound
      · rintro _ _ rfl
        rfl

theorem codes_brickIdxDelta {delta : Int} {codeLength : Nat} (high : delta < 2 ^ 31)
    (low : -2 ^ 31 < delta) (narrow : codeLength < 32) :
    Codes True outputView (inputView fifo locations)
      (do
        VLCWriter.xWriteCode (word delta) codeLength
        VLCWriter.xWriteBool (decide (delta > 0)))
      (do
        let code ← VLCReader.xReadCode codeLength
        let sign ← VLCReader.xReadBool
        return if sign then (code : Int) else -code)
      (fun _ read => read = delta) := by
  have inWord : word delta < 2 ^ 32 := by
    unfold word
    omega
  refine (codes_code_word trivial inWord).bind ?_
  rintro _ _ ⟨rfl, fits⟩
  -- a negative delta does not fit its code, so the writer has stopped
  have nonneg : 0 ≤ delta := by
    by_contra negative
    have power : 2 ^ codeLength ≤ 2 ^ 31 := Nat.pow_le_pow_right (by decide) (by omega)
    unfold word at fits
    omega
  refine Codes.readerMap _ (codes_bool _) ?_
  rintro _ _ rfl
  unfold word
  by_cases sign : delta > 0
  · simp only [sign, decide_true, if_true]
    omega
  · simp only [sign, decide_false, Bool.false_eq_true, if_false]
    omega

theorem getD_lt {values : List Nat} (bound : ∀ value ∈ values, value < 2 ^ 31) (i : Nat) :
    values.getD i 0 < 2 ^ 31 := by
  rw [List.getD_eq_getElem?_getD]
  cases found : values[i]? with
  | none => simp
  | some value => exact bound value (List.mem_of_getElem? found)

theorem brickIdxDelta_bound {pps : PPS} (indices : ∀ index ∈ pps.bottomRightBrickIdx, index < 2 ^ 31)
    (i : Nat) : -2 ^ 31 < brickIdxDelta pps i ∧ brickIdxDelta pps i < 2 ^ 31 := by
  have here := getD_lt indices i
  have before := getD_lt indices (i - 1)
  unfold brickIdxDelta
  split
  · next first =>
      subst first
      omega
  · omega

/-- The code length of the deltas is narrower than a word. -/
theorem ceilLog2_bound {numTilesInPic : Nat} (some : 0 < numTilesInPic)
    (bound : numTilesInPic < 2 ^ 31) :
    word (ceilLog2 numTilesInPic) < 32 ∧ word (ceilLog2 numTilesInPic) < 2 ^ 32 - 1 := by
  have narrow : word (ceilLog2 numTilesInPic) < 32 := by
    unfold ceilLog2 floorLog2 word
    rw [if_neg (by omega)]
    split
    · decide
    · have log : Nat.log2 (numTilesInPic - 1) < 31 := (Nat.log2_lt (by omega)).mpr (by omega)
      omega
  exact ⟨narrow, by omega⟩

/-- What `parseSlices` stores. -/
def sliced (pps start : PPS) : PPS :=
  if pps.singleBrickPerSliceFlag then
    { start with
      singleBrickPerSliceFlag := true
      rectSliceFlag := true
      bottomRightBrickIdxDelta :=
        (List.range start.numTilesInPic).map fun i => if i = 0 then 0 else 1
      numSlicesInPicMinus1 := start.numTilesInPic - 1 }
  else if pps.rectSliceFlag then
    { start with
      singleBrickPerSliceFlag := false
      rectSliceFlag := true
      numSlicesInPicMinus1 := pps.numSlicesInPicMinus1
      bottomRightBrickIdxDelta :=
        (List.range (pps.numSlicesInPicMinus1 + 1).toNat).map (brickIdxDelta pps) }
  else { start with singleBrickPerSliceFlag := false, rectSliceFlag := false }

theorem codes_slices {pps start : PPS} {numTilesInPic : Nat} (some : 0 < numTilesInPic)
    (bound : numTilesInPic < 2 ^ 31)
    (slices : pps.rectSliceFlag = true → ∃ numSlices : Nat, numSlices < 2 ^ 31 ∧
      pps.numSlicesInPicMinus1 = numSlices)
    (indices : ∀ index ∈ pps.bottomRightBrickIdx, index < 2 ^ 31) :
    Codes True outputView (inputView fifo locations) (codeSlices pps numTilesInPic)
      (parseSlices start) (fun _ parsed => parsed = sliced pps start ∧
        (pps.singleBrickPerSliceFlag = true → pps.rectSliceFlag = true)) := by
  unfold codeSlices parseSlices sliced
  refine (codes_bool _).bind ?_
  rintro _ _ rfl
  cases single : pps.singleBrickPerSliceFlag with
  | true =>
      simp only [writeFlagIf, readFlagIf, Bool.not_true, Bool.false_eq_true, if_false, pure_bind,
        Bool.and_false, Bool.and_true, if_true]
      refine Codes.writerCheck (Or.inl trivial) fun rect => ?_
      exact Codes.pure ⟨rfl, fun _ => by simpa using rect⟩
  | false =>
      simp only [Bool.not_false, Bool.and_true, Bool.and_false, Bool.false_eq_true, if_false]
      refine (codes_flagIf _ _ _ fun absent => absurd absent (by decide)).bind ?_
      rintro _ _ rfl
      refine Codes.writerCheck (Or.inr (by simp)) fun _ => ?_
      cases rect : pps.rectSliceFlag with
      | false =>
          simp only [Bool.false_eq_true, if_false]
          exact Codes.pure ⟨rfl, fun isSingle => absurd isSingle (by decide)⟩
      | true =>
          simp only [if_true]
          obtain ⟨numSlices, numBound, numEq⟩ := slices rect
          unfold codeBrickIdxDeltas parseBrickIdxDeltas
          rw [numEq, word_natCast (by omega)]
          refine (codes_uvlc (by omega)).bind ?_
          rintro _ numSlices rfl
          obtain ⟨narrow, length⟩ := ceilLog2_bound some bound
          refine (codes_uvlc (by omega)).bind ?_
          rintro _ _ rfl
          have rounds : ((numSlices : Int) + 1).toNat = numSlices + 1 := by omega
          rw [rounds]
          refine Codes.readerMap _ (Codes.collect (brickIdxDelta pps) _ fun i _ => ?_) ?_
          · obtain ⟨low, high⟩ := brickIdxDelta_bound indices i
            exact codes_brickIdxDelta high low narrow
          · rintro _ _ rfl
            exact ⟨rfl, fun _ => trivial⟩

theorem codes_loopFilterFlags (pps start : PPS) :
    Codes True outputView (inputView fifo locations) (codeLoopFilterFlags pps)
      (parseLoopFilterFlags start) (fun _ parsed => ∃ bricks slices, parsed = { start with
        loopFilterAcrossBricksEnabledFlag := bricks
        loopFilterAcrossSlicesEnabledFlag := slices }) := by
  unfold codeLoopFilterFlags parseLoopFilterFlags
  refine (codes_bool _).bind ?_
  rintro _ _ rfl
  cases enabled : pps.loopFilterAcrossBricksEnabledFlag with
  | true =>
      refine Codes.readerMap _ (codes_bool _) ?_
      rintro _ _ rfl
      exact ⟨_, _, rfl⟩
  | false => exact Codes.pure ⟨_, _, rfl⟩

/-- What `parseSliceIds` stores. -/
def identified (pps start : PPS) : PPS :=
  if pps.rectSliceFlag then
    if pps.signalledSliceIdFlag then
      { start with
        signalledSliceIdFlag := true
        signalledSliceIdLengthMinus1 := pps.signalledSliceIdLengthMinus1
        sliceId := (List.range (pps.numSlicesInPicMinus1 + 1).toNat).map fun i =>
          pps.sliceId.getD i 0 }
    else
      { start with
        signalledSliceIdFlag := false
        sliceId := List.range (pps.numSlicesInPicMinus1 + 1).toNat }
  else start

theorem codes_sliceIds {pps start : PPS} (rect : start.rectSliceFlag = pps.rectSliceFlag)
    (count : pps.rectSliceFlag = true → start.numSlicesInPicMinus1 = pps.numSlicesInPicMinus1 ∧
      0 ≤ pps.numSlicesInPicMinus1)
    (ids : ∀ id ∈ pps.sliceId, id < 2 ^ 31) (idLength : pps.signalledSliceIdLengthMinus1 < 2 ^ 31) :
    Codes True outputView (inputView fifo locations) (codeSliceIds pps)
      (parseSliceIds start) (fun _ parsed => parsed = identified pps start) := by
  unfold codeSliceIds parseSliceIds identified
  rw [rect]
  cases rectangular : pps.rectSliceFlag with
  | false =>
      simp only [Bool.false_eq_true, if_false]
      exact Codes.pure rfl
  | true =>
      obtain ⟨same, nonneg⟩ := count rectangular
      simp only [if_true, same]
      refine (codes_bool _).bind ?_
      rintro _ _ rfl
      cases signalled : pps.signalledSliceIdFlag with
      | true =>
          simp only [if_true]
          refine (codes_uvlc (by omega)).bind ?_
          rintro _ _ rfl
          refine Codes.readerMap _ (Codes.collect (fun i => pps.sliceId.getD i 0) _
            fun i _ => ?_) ?_
          · have small := getD_lt ids i
            exact (codes_code_word trivial (by omega)).weaken fun _ _ read => read.1
          · rintro _ _ rfl
            rw [if_pos (by omega)]
      | false =>
          simp only [Bool.false_eq_true, if_false]
          exact Codes.readerStep (Accepts.check _ (by omega)) (Codes.pure rfl)

end Codes

/-! ## The layout that is read -/

section Layout

variable {sps : SPS} {pps : PPS}

theorem range_map_getD {α : Type} (values : List α) (default : α) {count : Nat}
    (enough : count ≤ values.length) :
    ((List.range count).map fun i => values.getD i default) = values.take count := by
  apply List.ext_getElem
  · simp [enough]
  · intro i _ second
    have inside : i < values.length := by
      simp only [List.length_take] at second
      omega
    simp [List.getD_eq_getElem?_getD, List.getElem?_eq_getElem inside]

/-- The reader's counting loop and the list of uniform sizes. -/
theorem uniformSizes_countTiles (size fuel total : Nat) :
    ∃ more last, uniformSizes size fuel total = List.replicate more size ++ [last] ∧
      ∀ count, countTiles size fuel count total = (count + more, last) := by
  induction fuel generalizing total with
  | zero => exact ⟨0, total, rfl, fun _ => rfl⟩
  | succ fuel ih =>
      by_cases large : total > size
      · obtain ⟨more, last, sizes, counts⟩ := ih (total - size)
        refine ⟨more + 1, last, ?_, fun count => ?_⟩
        · rw [uniformSizes, if_pos large, sizes, List.replicate_succ, List.cons_append]
        · rw [countTiles, if_pos large, counts, Nat.add_right_comm, Nat.add_assoc]
      · refine ⟨0, total, ?_, fun count => ?_⟩
        · rw [uniformSizes, if_neg large]
          rfl
        · rw [countTiles, if_neg large]
          rfl

theorem uniformTileHeight_eq {start : PPS} (uniform : start.uniformTileSpacingFlag = true) :
    uniformTileHeight sps start = start.tileHeights sps := by
  obtain ⟨moreRows, lastRow, rows, countRows⟩ := uniformSizes_countTiles
    (start.tileRowsHeightMinus1 + 1) (start.picHeightInCtus sps) (start.picHeightInCtus sps)
  obtain ⟨moreColumns, lastColumn, columns, countColumns⟩ := uniformSizes_countTiles
    (start.tileColsWidthMinus1 + 1) (start.picWidthInCtus sps) (start.picWidthInCtus sps)
  have count : 1 + moreColumns = moreColumns + 1 := Nat.add_comm _ _
  unfold uniformTileHeight PPS.tileHeights PPS.tileRowHeights PPS.tileColWidth
  simp only [uniform, if_true, rows, columns, countRows, countColumns, List.flatMap_append,
    List.length_append, List.length_replicate, List.length_singleton, count]
  simp [List.flatMap_replicate]

/-- Explicit sizes cover all columns or rows only if each has its size. -/
theorem le_length_of_explicitSizes {sizes : List Nat} {count total : Nat}
    (length : (PPS.explicitSizes (sizes.take count) total).length = count + 1) :
    count ≤ sizes.length := by
  simp only [PPS.explicitSizes, List.length_append, List.length_take, List.length_singleton] at length
  omega

theorem explicitTileHeight_eq {start : PPS} (explicit : start.uniformTileSpacingFlag = false)
    (numColumns : (start.tileColWidth sps).length = start.numTileColumnsMinus1 + 1)
    (numRows : (start.tileRowHeights sps).length = start.numTileRowsMinus1 + 1) :
    explicitTileHeight sps start = start.tileHeights sps := by
  have rows : start.tileRowHeights sps = PPS.explicitSizes
      (start.tileRowHeight.take start.numTileRowsMinus1) (start.picHeightInCtus sps) := by
    simp [PPS.tileRowHeights, explicit]
  rw [rows] at numRows
  unfold explicitTileHeight PPS.tileHeights
  rw [rows, numColumns, range_map_getD _ _ (le_length_of_explicitSizes numRows),
    PPS.explicitSizes, List.flatMap_append]
  simp

theorem readHeights_eq {start : PPS}
    (numColumns : start.uniformTileSpacingFlag = false →
      (start.tileColWidth sps).length = start.numTileColumnsMinus1 + 1)
    (numRows : start.uniformTileSpacingFlag = false →
      (start.tileRowHeights sps).length = start.numTileRowsMinus1 + 1) :
    readHeights sps start = start.tileHeights sps := by
  unfold readHeights
  cases uniform : start.uniformTileSpacingFlag with
  | true => exact uniformTileHeight_eq uniform
  | false => exact explicitTileHeight_eq uniform (numColumns uniform) (numRows uniform)

/-- The tile sizes read are those of the PPS. -/
theorem spaced_sizes (valid : ValidLayout sps pps) (start : PPS)
    (width : start.picWidthInLumaSamples = pps.picWidthInLumaSamples)
    (height : start.picHeightInLumaSamples = pps.picHeightInLumaSamples)
    (noColumns : start.tileColumnWidth = []) (noRows : start.tileRowHeight = []) :
    (spaced pps start).tileColWidth sps = pps.tileColWidth sps ∧
      (spaced pps start).tileRowHeights sps = pps.tileRowHeights sps := by
  have numColumns := valid.numColumns
  have numRows := valid.numRows
  unfold PPS.tileColWidth PPS.tileRowHeights at *
  unfold spaced PPS.picWidthInCtus PPS.picHeightInCtus at *
  cases uniform : pps.uniformTileSpacingFlag with
  | true => simp [width, height]
  | false =>
      simp only [uniform, Bool.false_eq_true, if_false] at numColumns numRows ⊢
      rw [range_map_getD _ _ (le_length_of_explicitSizes numColumns),
        range_map_getD _ _ (le_length_of_explicitSizes numRows), width, height, noColumns, noRows]
      constructor
      · by_cases some : pps.numTileColumnsMinus1 > 0
        · rw [if_pos some, List.take_take, Nat.min_self]
        · rw [if_neg some, show pps.numTileColumnsMinus1 = 0 by omega]
          rfl
      · by_cases some : pps.numTileRowsMinus1 > 0
        · rw [if_pos some, List.take_take, Nat.min_self]
        · rw [if_neg some, show pps.numTileRowsMinus1 = 0 by omega]
          rfl

/-! ### Bounds -/

theorem Fills.le {sizes : List Nat} {total size : Nat} (fills : Fills sizes total)
    (member : size ∈ sizes) : size ≤ total := by
  rw [← fills.sum]
  exact List.single_le_sum (fun _ _ => Nat.zero_le _) size member

theorem Fills.length_le {sizes : List Nat} {total : Nat} (fills : Fills sizes total) :
    sizes.length ≤ total := by
  have bounded := List.card_nsmul_le_sum sizes 1 fills.positive
  rw [fills.sum] at bounded
  simpa using bounded

theorem ValidLayout.numTiles_bound (valid : ValidLayout sps pps) :
    0 < pps.numTilesInPic ∧ pps.numTilesInPic < 2 ^ 31 := by
  rw [valid.numTiles]
  refine ⟨by positivity, lt_of_le_of_lt ?_ valid.area⟩
  rw [← valid.numColumns, ← valid.numRows]
  exact Nat.mul_le_mul valid.columns.length_le valid.rows.length_le

theorem ValidLayout.width_bound (valid : ValidLayout sps pps) :
    pps.picWidthInCtus sps < 2 ^ 31 ∧ pps.picHeightInCtus sps < 2 ^ 31 := by
  have area := valid.area
  have columns := valid.columns.length_le
  have rows := valid.rows.length_le
  rw [valid.numColumns] at columns
  rw [valid.numRows] at rows
  constructor
  · exact lt_of_le_of_lt (Nat.le_mul_of_pos_right _ (by omega)) area
  · exact lt_of_le_of_lt (Nat.le_mul_of_pos_left _ (by omega)) area

/-- An explicit size is one of the sizes of the picture. -/
theorem explicitSize_bound {sizes : List Nat} {count total i : Nat}
    (fills : Fills (PPS.explicitSizes (sizes.take count) total) total)
    (length : (PPS.explicitSizes (sizes.take count) total).length = count + 1)
    (inside : i < count) : 0 < sizes.getD i 0 ∧ sizes.getD i 0 ≤ total := by
  have here : i < sizes.length := lt_of_lt_of_le inside (le_length_of_explicitSizes length)
  have member : sizes.getD i 0 ∈ PPS.explicitSizes (sizes.take count) total := by
    rw [PPS.explicitSizes, List.mem_append]
    left
    rw [List.getD_eq_getElem?_getD, List.getElem?_eq_getElem here, Option.getD_some]
    exact List.mem_take_iff_getElem.mpr ⟨i, by omega, rfl⟩
  exact ⟨fills.positive _ member, fills.le member⟩

theorem ValidLayout.tileWords (valid : ValidLayout sps pps) : TileWords pps := by
  obtain ⟨widthBound, heightBound⟩ := valid.width_bound
  have numColumns := valid.numColumns
  have numRows := valid.numRows
  have columnsLe := valid.columns.length_le
  have rowsLe := valid.rows.length_le
  refine ⟨fun uniform => ?_, fun uniform => ?_, by omega, by omega, ?_, ?_⟩
  · have inside := valid.uniformColumns uniform
    omega
  · have inside := valid.uniformRows uniform
    omega
  · intro explicit i inside
    have fills := valid.columns
    simp only [PPS.tileColWidth, explicit, Bool.false_eq_true, if_false] at fills numColumns
    obtain ⟨positive, atMost⟩ := explicitSize_bound fills numColumns inside
    exact ⟨positive, lt_of_le_of_lt atMost widthBound⟩
  · intro explicit i inside
    have fills := valid.rows
    simp only [PPS.tileRowHeights, explicit, Bool.false_eq_true, if_false] at fills numRows
    obtain ⟨positive, atMost⟩ := explicitSize_bound fills numRows inside
    exact ⟨positive, lt_of_le_of_lt atMost heightBound⟩

/-- Every tile height is at most the height of the picture. -/
theorem ValidLayout.tileHeight_le (valid : ValidLayout sps pps) {height : Nat}
    (member : height ∈ pps.tileHeights sps) : height ≤ pps.picHeightInCtus sps := by
  obtain ⟨row, inRows, repeated⟩ := List.mem_flatMap.mp member
  rw [List.eq_of_mem_replicate repeated]
  exact valid.rows.le inRows

theorem ValidLayout.bricks_at (valid : ValidLayout sps pps)
    (present : pps.brickSplittingPresentFlag = true) {i : Nat} (inside : i < pps.numTilesInPic) :
    ValidBricks pps i (pps.tileHeight.getD i 0) ∧ pps.tileHeight.getD i 0 < 2 ^ 31 := by
  have here : i < (pps.tileHeights sps).length := by rwa [length_tileHeights valid]
  have found : (pps.tileHeights sps)[i]? = some (pps.tileHeights sps)[i] :=
    List.getElem?_eq_getElem here
  rw [valid.heights present, List.getD_eq_getElem?_getD, found, Option.getD_some]
  refine ⟨valid.bricks present i _ found, ?_⟩
  exact lt_of_le_of_lt (valid.tileHeight_le (List.getElem_mem here)) valid.width_bound.2

/-! ### Bricks, slices and ids as they are stored -/

theorem brickSplit_bricked (valid : ValidLayout sps pps) (heights : List Nat) (start : PPS)
    (present : start.brickSplittingPresentFlag = pps.brickSplittingPresentFlag)
    (numTiles : start.numTilesInPic = pps.numTilesInPic) {i : Nat} (inside : i < pps.numTilesInPic) :
    (bricked pps heights start).brickSplit i = pps.brickSplit i := by
  unfold bricked PPS.brickSplit
  cases splitting : pps.brickSplittingPresentFlag with
  | false => simp [present, splitting]
  | true =>
      obtain ⟨bricks, _⟩ := valid.bricks_at splitting inside
      have read : ∀ {α : Type} (f : TileBricks → α) (default : α),
          (((List.range start.numTilesInPic).map (tileBricks pps)).map f).getD i default =
            f (tileBricks pps i) := by
        intro α f default
        simp [List.getD_eq_getElem?_getD, numTiles, inside]
      simp only [if_true, present, splitting, Bool.true_and, read]
      unfold tileBricks
      cases split : pps.brickSplitFlag.getD i false with
      | false => simp
      | true =>
          cases spacing : pps.uniformBrickSpacingFlag.getD i false with
          | true => simp
          | false =>
              obtain ⟨length, _⟩ := bricks.explicitRows split spacing
              simp only [if_true, Bool.false_eq_true, if_false]
              rw [range_map_getD _ _ (by omega), List.take_take, Nat.min_self]

/-- The deltas of a list of indices. -/
theorem sumDeltas_deltas (previous : Int) (indices : List Nat) :
    PPS.sumDeltas previous ((List.range indices.length).map fun i =>
      if i = 0 then (indices.getD 0 0 : Int) - previous
      else (indices.getD i 0 : Int) - indices.getD (i - 1) 0) =
      indices.map fun index : Nat => (index : Int) := by
  induction indices generalizing previous with
  | nil => rfl
  | cons first rest ih =>
      have step := ih first
      rw [List.length_cons, List.range_succ_eq_map, List.map_cons, List.map_map, PPS.sumDeltas,
        List.map_cons]
      have head : (if 0 = 0 then (((first :: rest).getD 0 0 : Nat) : Int) - previous
          else ((first :: rest).getD 0 0 : Int) - (first :: rest).getD (0 - 1) 0) + previous =
          first := by simp
      rw [head]
      congr 1
      rw [← step]
      congr 1
      apply List.map_congr_left
      intro i _
      cases i with
      | zero => simp
      | succ i => simp

theorem numBricks_of_whole (valid : ValidLayout sps pps)
    (whole : ∀ i < pps.numTilesInPic, pps.brickSplit i = .whole) :
    pps.numBricks sps = pps.numTilesInPic := by
  have ones : ((pps.tileHeights sps).mapIdx fun i height =>
      ((pps.brickSplit i).heights height).length) =
      List.replicate (pps.tileHeights sps).length 1 := by
    apply List.ext_getElem
    · simp
    · intro i inside _
      rw [List.length_mapIdx, length_tileHeights valid] at inside
      simp [whole i inside, PPS.BrickSplit.heights]
  rw [PPS.numBricks, ones, List.sum_replicate_nat, Nat.mul_one, length_tileHeights valid]

/-- Slices of single bricks are as many as the bricks. -/
theorem ValidLayout.numSlices_single (valid : ValidLayout sps pps)
    (rect : pps.rectSliceFlag = true) (single : pps.singleBrickPerSliceFlag = true) :
    pps.numSlicesInPicMinus1 = (pps.numBricks sps : Int) - 1 := by
  obtain ⟨numSlices, _, count, length, _⟩ := valid.slices rect
  rw [valid.singleBricks single, List.length_range] at length
  omega

/-- The slice members after `parseSlices`. -/
theorem sliced_eq (valid : ValidLayout sps pps) {start : PPS}
    (numTiles : start.numTilesInPic = pps.numTilesInPic) (none : start.numSlicesInPicMinus1 = 0)
    (rectangular : pps.singleBrickPerSliceFlag = true → pps.rectSliceFlag = true)
    (whole : pps.singleBrickPerSliceFlag = true → ∀ i < pps.numTilesInPic,
      pps.brickSplit i = .whole) :
    ∃ deltas, sliced pps start = { start with
        singleBrickPerSliceFlag := pps.singleBrickPerSliceFlag
        rectSliceFlag := pps.rectSliceFlag
        numSlicesInPicMinus1 := pps.numSlicesInPicMinus1
        bottomRightBrickIdxDelta := deltas } ∧
      (pps.rectSliceFlag = true → PPS.sumDeltas 0 deltas =
        pps.bottomRightBrickIdx.map fun index : Nat => (index : Int)) := by
  unfold sliced
  cases single : pps.singleBrickPerSliceFlag with
  | true =>
      have rect := rectangular single
      have bricks := numBricks_of_whole valid (whole single)
      have count := valid.numSlices_single rect single
      rw [bricks] at count
      refine ⟨_, by rw [count, rect, numTiles]; rfl, fun _ => ?_⟩
      rw [valid.singleBricks single, bricks, ← numTiles]
      have sums := sumDeltas_deltas 0 (List.range start.numTilesInPic)
      rw [List.length_range] at sums
      rw [← sums]
      congr 1
      apply List.map_congr_left
      intro i inside
      have here := List.mem_range.mp inside
      by_cases first : i = 0
      · subst first
        simp [List.getD_eq_getElem?_getD, here]
      · have before : i - 1 < start.numTilesInPic := by omega
        simp only [if_neg first, List.getD_eq_getElem?_getD, List.getElem?_range here,
          List.getElem?_range before, Option.getD_some]
        omega
  | false =>
      cases rect : pps.rectSliceFlag with
      | true =>
          obtain ⟨numSlices, _, count, length, _⟩ := valid.slices rect
          refine ⟨_, rfl, fun _ => ?_⟩
          have rounds : (pps.numSlicesInPicMinus1 + 1).toNat = pps.bottomRightBrickIdx.length := by
            omega
          have deltas : brickIdxDelta pps = fun i =>
              if i = 0 then (pps.bottomRightBrickIdx.getD 0 0 : Int) - 0
              else (pps.bottomRightBrickIdx.getD i 0 : Int) -
                pps.bottomRightBrickIdx.getD (i - 1) 0 := by
            funext i
            simp [brickIdxDelta]
          rw [rounds, deltas, sumDeltas_deltas 0 pps.bottomRightBrickIdx]
      | false =>
          refine ⟨start.bottomRightBrickIdxDelta, ?_, fun absent => absurd absent (by decide)⟩
          rw [valid.raster rect, ← none]
          rfl

/-- The ids after `parseSliceIds`. -/
theorem identified_eq (valid : ValidLayout sps pps) (start : PPS) :
    ∃ flag length ids, identified pps start = { start with
        signalledSliceIdFlag := flag
        signalledSliceIdLengthMinus1 := length
        sliceId := ids } ∧ (pps.rectSliceFlag = true → ids = pps.sliceId) := by
  unfold identified
  cases rect : pps.rectSliceFlag with
  | false => exact ⟨_, _, _, rfl, fun absent => absurd absent (by decide)⟩
  | true =>
      obtain ⟨numSlices, _, count, _, length⟩ := valid.slices rect
      have rounds : (pps.numSlicesInPicMinus1 + 1).toNat = pps.sliceId.length := by omega
      cases signalled : pps.signalledSliceIdFlag with
      | true =>
          refine ⟨_, _, _, rfl, fun _ => ?_⟩
          rw [rounds, range_map_getD _ _ le_rfl, List.take_length]
      | false =>
          refine ⟨_, _, _, rfl, fun _ => ?_⟩
          rw [rounds]
          exact (valid.defaultIds rect signalled).symm

/-- One size that fills the picture is the picture size. -/
theorem Fills.eq_singleton {sizes : List Nat} {total : Nat} (fills : Fills sizes total)
    (one : sizes.length = 1) : sizes = [total] := by
  obtain ⟨size, rfl⟩ := List.length_eq_one_iff.mp one
  have sum := fills.sum
  simp only [List.sum_singleton] at sum
  rw [sum]

/-- A picture with one tile is read back. -/
theorem sameLayout_single (valid : ValidLayout sps pps) (single : pps.singleTileInPicFlag = true)
    (singleBrick : pps.singleBrickPerSliceFlag = true) (rect : pps.rectSliceFlag = true) :
    SameLayout sps
      (identified pps (setSingleTile (startedPPS pps true))) pps := by
  obtain ⟨flag, length, ids, stored, sameIds⟩ := identified_eq valid
    (setSingleTile (startedPPS pps true))
  obtain ⟨oneTile, unsplit⟩ := valid.single single
  have numTiles := valid.numTiles
  rw [oneTile] at numTiles
  have none : pps.numTileColumnsMinus1 = 0 ∧ pps.numTileRowsMinus1 = 0 := by
    have product := Nat.eq_one_of_mul_eq_one_right numTiles.symm
    have product' := Nat.eq_one_of_mul_eq_one_left numTiles.symm
    omega
  have whole : ∀ i, pps.brickSplit i = .whole := fun i => by simp [PPS.brickSplit, unsplit]
  have bricks := numBricks_of_whole valid fun i _ => whole i
  have count := valid.numSlices_single rect singleBrick
  rw [bricks, oneTile] at count
  rw [stored]
  refine ⟨single.symm, fun several => absurd several (by simp [single]), ?_, ?_, oneTile.symm,
    unsplit.symm, fun i _ => (whole i).symm, singleBrick.symm, rect.symm, ?_, fun _ => ?_, sameIds⟩
  · rw [valid.columns.eq_singleton (by rw [valid.numColumns, none.1])]
    rfl
  · rw [valid.rows.eq_singleton (by rw [valid.numRows, none.2])]
    rfl
  · rw [count]
    rfl
  · rw [valid.singleBricks singleBrick, bricks, oneTile]
    rfl

/-- What the reader has stored after the tile spacing. -/
def tileSpaced (pps : PPS) : PPS :=
  spaced pps (startedPPS pps false)

/-- What the reader has stored after the number of tiles. -/
def tileCounted (pps : PPS) : PPS :=
  { tileSpaced pps with
    brickSplittingPresentFlag := pps.brickSplittingPresentFlag
    numTilesInPic := pps.numTilesInPic }

/-- What the reader has stored after the bricks. -/
def tiled (pps : PPS) : PPS := bricked pps pps.tileHeight (tileCounted pps)

/-- The members of `tiled` outside the bricks. -/
theorem tiled_fields (pps : PPS) :
    (tiled pps).singleTileInPicFlag = false ∧
    (tiled pps).uniformTileSpacingFlag = pps.uniformTileSpacingFlag ∧
    (tiled pps).numTilesInPic = pps.numTilesInPic ∧
    (tiled pps).brickSplittingPresentFlag = pps.brickSplittingPresentFlag ∧
    (tiled pps).numSlicesInPicMinus1 = 0 := by
  unfold tiled bricked tileCounted tileSpaced spaced
  cases pps.brickSplittingPresentFlag <;> cases pps.uniformTileSpacingFlag <;>
    exact ⟨rfl, rfl, rfl, rfl, rfl⟩

theorem tileSpaced_sizes (valid : ValidLayout sps pps) :
    (tileSpaced pps).tileColWidth sps = pps.tileColWidth sps ∧
      (tileSpaced pps).tileRowHeights sps = pps.tileRowHeights sps :=
  spaced_sizes valid (startedPPS pps false) rfl rfl rfl rfl

theorem tiled_sizes (valid : ValidLayout sps pps) :
    (tiled pps).tileColWidth sps = pps.tileColWidth sps ∧
      (tiled pps).tileRowHeights sps = pps.tileRowHeights sps := by
  have sizes := tileSpaced_sizes valid
  unfold tiled bricked
  cases pps.brickSplittingPresentFlag with
  | true => exact sizes
  | false => exact sizes

theorem tileSpaced_fields (pps : PPS) :
    (tileSpaced pps).uniformTileSpacingFlag = pps.uniformTileSpacingFlag ∧
      (pps.uniformTileSpacingFlag = false →
        (tileSpaced pps).numTileColumnsMinus1 = pps.numTileColumnsMinus1 ∧
        (tileSpaced pps).numTileRowsMinus1 = pps.numTileRowsMinus1) := by
  unfold tileSpaced spaced
  cases pps.uniformTileSpacingFlag with
  | true => exact ⟨rfl, fun explicit => absurd explicit (by decide)⟩
  | false => exact ⟨rfl, fun _ => ⟨rfl, rfl⟩⟩

/-- The tile heights the reader computes are those of the PPS. -/
theorem readHeights_tileCounted (valid : ValidLayout sps pps) :
    readHeights sps (tileCounted pps) = pps.tileHeights sps := by
  obtain ⟨columns, rows⟩ := tileSpaced_sizes valid
  obtain ⟨spacing, counts⟩ := tileSpaced_fields pps
  have same : (tileCounted pps).tileHeights sps = pps.tileHeights sps := by
    show (tileSpaced pps).tileHeights sps = pps.tileHeights sps
    rw [PPS.tileHeights, PPS.tileHeights, columns, rows]
  rw [← same]
  apply readHeights_eq
  · intro explicit
    have explicit' : pps.uniformTileSpacingFlag = false := spacing.symm.trans explicit
    show ((tileSpaced pps).tileColWidth sps).length = (tileSpaced pps).numTileColumnsMinus1 + 1
    rw [columns, (counts explicit').1, valid.numColumns]
  · intro explicit
    have explicit' : pps.uniformTileSpacingFlag = false := spacing.symm.trans explicit
    show ((tileSpaced pps).tileRowHeights sps).length = (tileSpaced pps).numTileRowsMinus1 + 1
    rw [rows, (counts explicit').2, valid.numRows]

/-- A picture with several tiles is read back. -/
theorem sameLayout_tiled (valid : ValidLayout sps pps) (several : pps.singleTileInPicFlag = false)
    (rectangular : pps.singleBrickPerSliceFlag = true → pps.rectSliceFlag = true)
    (whole : pps.singleBrickPerSliceFlag = true → ∀ i < pps.numTilesInPic,
      pps.brickSplit i = .whole) (acrossBricks acrossSlices : Bool) :
    SameLayout sps (identified pps { sliced pps (tiled pps) with
      loopFilterAcrossBricksEnabledFlag := acrossBricks
      loopFilterAcrossSlicesEnabledFlag := acrossSlices }) pps := by
  obtain ⟨single, uniform, numTiles, splitting, none⟩ := tiled_fields pps
  obtain ⟨columns, rows⟩ := tiled_sizes valid
  obtain ⟨deltas, cut, indices⟩ := sliced_eq valid numTiles none rectangular whole
  rw [cut]
  obtain ⟨flag, length, ids, stored, sameIds⟩ := identified_eq valid { tiled pps with
    singleBrickPerSliceFlag := pps.singleBrickPerSliceFlag
    rectSliceFlag := pps.rectSliceFlag
    numSlicesInPicMinus1 := pps.numSlicesInPicMinus1
    bottomRightBrickIdxDelta := deltas
    loopFilterAcrossBricksEnabledFlag := acrossBricks
    loopFilterAcrossSlicesEnabledFlag := acrossSlices }
  rw [stored]
  refine ⟨single.trans several.symm, fun _ => uniform, columns, rows, numTiles, splitting,
    fun i inside => brickSplit_bricked valid _ (tileCounted pps) rfl rfl inside, rfl, rfl, rfl,
    fun rect => ?_, sameIds⟩
  rw [← indices rect]
  simp only [PPS.bottomRightBricks, single, Bool.false_eq_true, if_false]

theorem codes_tiles {fifo : List UInt8} {locations : List Nat} (valid : ValidLayout sps pps)
    (reads : pps.uniformTileSpacingFlag = true → pps.brickSplittingPresentFlag = true) :
    Codes True outputView (inputView fifo locations) (codeTiles pps)
      (parseTiles sps (startedPPS pps false))
      (fun _ parsed => (pps.singleBrickPerSliceFlag = true → pps.rectSliceFlag = true) ∧
        ∃ acrossBricks acrossSlices, parsed = { sliced pps (tiled pps) with
          loopFilterAcrossBricksEnabledFlag := acrossBricks
          loopFilterAcrossSlicesEnabledFlag := acrossSlices }) := by
  obtain ⟨some, bound⟩ := valid.numTiles_bound
  obtain ⟨spacing, counts⟩ := tileSpaced_fields pps
  have spaces : Codes True outputView (inputView fifo locations) (codeTileSpacing pps)
      (parseTileSpacing (startedPPS pps false))
      (fun _ parsed => parsed = tileSpaced pps) := codes_tileSpacing valid.tileWords _
  have counting : Codes True outputView (inputView fifo locations)
      (codeNumTilesInPic pps pps.numTilesInPic) (parseNumTilesInPic (tileSpaced pps))
      (fun _ parsed => parsed = tileCounted pps) := by
    refine codes_numTilesInPic reads some bound spacing fun explicit => ?_
    rw [(counts explicit).1, (counts explicit).2, valid.numTiles]
  have splits : Codes True outputView (inputView fifo locations)
      (codeBricks pps pps.numTilesInPic) (parseBricks sps (tileCounted pps))
      (fun _ parsed => parsed = tiled pps) := by
    refine codes_bricks rfl rfl (fun present => ?_) fun present i inside => ?_
    · rw [readHeights_tileCounted valid, valid.heights present]
    · exact valid.bricks_at present inside
  unfold codeTiles parseTiles
  rw [← valid.numTiles]
  refine spaces.bind ?_
  rintro _ _ rfl
  refine counting.bind ?_
  rintro _ _ rfl
  refine splits.bind ?_
  rintro _ _ rfl
  refine (codes_slices some bound (fun rect => ?_) valid.indices).bind ?_
  · obtain ⟨numSlices, few, count, _⟩ := valid.slices rect
    exact ⟨numSlices, few, count⟩
  rintro _ _ ⟨rfl, rectangular⟩
  exact (codes_loopFilterFlags pps _).weaken fun _ _ stored => ⟨rectangular, stored⟩

/-- What `codePPS` writes for a layout the reader recovers is read back as the
same layout. -/
theorem codes_layout {fifo : List UInt8} {locations : List Nat} (valid : ValidLayout sps pps)
    (reads : ReadsBack pps) :
    Codes True outputView (inputView fifo locations) (codePPSLayout pps)
      (parsePPSLayout sps (freshPPS pps)) (fun _ parsed => SameLayout sps parsed pps) := by
  unfold codePPSLayout parsePPSLayout
  refine (codes_bool _).bind ?_
  rintro _ _ rfl
  unfold codeSlicing parseSlicing
  have nonneg : pps.rectSliceFlag = true → 0 ≤ pps.numSlicesInPicMinus1 := by
    intro rect
    obtain ⟨numSlices, _, count, _⟩ := valid.slices rect
    omega
  cases single : pps.singleTileInPicFlag with
  | true =>
      simp only [Bool.not_true, Bool.false_eq_true, if_false]
      have checked : Codes True outputView (inputView fifo locations) (checkSingleTile pps)
          (pure (setSingleTile (startedPPS pps true)) : BitReader PPS)
          (fun _ parsed => parsed = setSingleTile (startedPPS pps true) ∧
            pps.singleBrickPerSliceFlag = true ∧ pps.rectSliceFlag = true) := by
        refine Codes.writerCheck (Or.inl trivial) fun singleBrick => ?_
        refine Codes.writerGuard (Or.inl trivial) fun rect => ?_
        exact ⟨rfl, by simpa using singleBrick, by simpa using rect⟩
      refine checked.bind ?_
      rintro _ _ ⟨rfl, singleBrick, rect⟩
      have same := sameLayout_single valid single singleBrick rect
      have count : pps.numSlicesInPicMinus1 = 0 := by
        obtain ⟨_, _, _, stored, _⟩ := identified_eq valid
          (setSingleTile (startedPPS pps true))
        have number := same.numSlices
        rw [stored] at number
        exact number.symm
      refine (codes_sliceIds rect.symm (fun _ => ⟨count.symm, nonneg rect⟩) valid.ids
        valid.idLength).weaken ?_
      rintro _ _ rfl
      exact same
  | false =>
      obtain ⟨uniform, whole⟩ := reads.resolve_left (by simp [single])
      simp only [Bool.not_false, if_true]
      refine (codes_tiles valid uniform).bind ?_
      rintro _ _ ⟨rectangular, acrossBricks, acrossSlices, rfl⟩
      obtain ⟨_, _, numTiles, _, none⟩ := tiled_fields pps
      obtain ⟨deltas, cut, _⟩ := sliced_eq valid numTiles none rectangular whole
      refine (codes_sliceIds ?_ (fun rect => ⟨?_, nonneg rect⟩) valid.ids valid.idLength).weaken ?_
      · rw [cut]
      · rw [cut]
      · rintro _ _ rfl
        exact sameLayout_tiled valid single rectangular whole _ _

/-- A layout that was read back is one the reader recovers. -/
theorem readsBack_of_sameLayout (valid : ValidLayout sps pps) {parsed : PPS}
    {s s' : InputBitstream} (run : parsePPSLayout sps (freshPPS pps) s = .ok (parsed, s'))
    (same : SameLayout sps parsed pps) : ReadsBack pps := by
  cases single : pps.singleTileInPicFlag with
  | true => exact Or.inl single
  | false =>
      obtain ⟨uncounted, slices⟩ := parsePPSLayout_run run (same.singleTile.trans single)
      have numTiles := same.numTiles
      have some := valid.numTiles_bound.1
      refine Or.inr ⟨fun uniform => ?_, fun singleBrick => ?_⟩
      · by_contra absent
        have none := uncounted ((same.spacing single).trans uniform)
          (same.splitting.trans (by simpa using absent))
        omega
      · obtain ⟨rect, count⟩ := slices (same.singleBrick.trans singleBrick)
        have bricks := valid.numSlices_single (same.rect.symm.trans rect) singleBrick
        rw [same.numSlices, bricks, numTiles] at count
        exact whole_of_numBricks valid (by omega)

end Layout

/-- CTUs of 128 samples; the samples below are pictures of three by three CTUs. -/
def sampleSPS : SPS := ⟨128, 128⟩

/-- Two tiles of explicit width, each a slice with a signalled id. -/
def explicitSample : PPS where
  singleTileInPicFlag := false
  numTileColumnsMinus1 := 1
  tileColumnWidth := [1]
  numTilesInPic := 2
  numSlicesInPicMinus1 := 1
  bottomRightBrickIdx := [0, 1]
  signalledSliceIdFlag := true
  signalledSliceIdLengthMinus1 := 3
  sliceId := [9, 5]

theorem valid_explicitSample : ValidLayout sampleSPS explicitSample where
  area := by decide
  columns := ⟨by decide, by decide⟩
  rows := ⟨by decide, by decide⟩
  uniformColumns := by decide
  uniformRows := by decide
  numColumns := by decide
  numRows := by decide
  numTiles := by decide
  single := by decide
  heights := by decide
  bricks := fun present => absurd present (by decide)
  raster := by decide
  slices := fun _ => ⟨1, by decide, rfl, rfl, rfl⟩
  singleBricks := by decide
  indices := by decide
  ids := by decide
  idLength := by decide
  defaultIds := by decide

/-- Two uniform tiles without bricks, in raster slices. -/
def uniformSample : PPS where
  singleTileInPicFlag := false
  uniformTileSpacingFlag := true
  tileColsWidthMinus1 := 1
  tileRowsHeightMinus1 := 2
  numTileColumnsMinus1 := 1
  numTilesInPic := 2
  singleBrickPerSliceFlag := false
  rectSliceFlag := false

theorem valid_uniformSample : ValidLayout sampleSPS uniformSample where
  area := by decide
  columns := ⟨by decide, by decide⟩
  rows := ⟨by decide, by decide⟩
  uniformColumns := by decide
  uniformRows := by decide
  numColumns := by decide
  numRows := by decide
  numTiles := by decide
  single := by decide
  heights := by decide
  bricks := fun present => absurd present (by decide)
  raster := by decide
  slices := fun rect => absurd rect (by decide)
  singleBricks := by decide
  indices := by decide
  ids := by decide
  idLength := by decide
  defaultIds := by decide

end Vtm.RoundTrip.PPS
