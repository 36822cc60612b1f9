import Mathlib.Algebra.BigOperators.Fin
import Mathlib.Data.List.Forall2
import Mathlib.Logic.Equiv.Fin.Basic
import PuzzleCalendar.Proofs.Jigsaw.Turning

/-! # Layouts of tiles

A layout puts a tile on each cell of a square. It is joined when tiles that touch have equal borders
there, and clean when moreover no border occurs more often than it has to: once on the outside and
twice between two tiles. The whole layout can be turned and mirrored like a picture, and neither changes
any of this.
-/

namespace PuzzleCalendar.Jigsaw

open Finset

/-- Tiles in the rows and columns of a square. -/
@[ext] structure Layout (size side : Nat) where
  tile : Fin side → Fin side → Tile size

namespace Layout

variable {size side : Nat} (layout : Layout size side)

/-- The tiles row by row. -/
def tiles : List (Tile size) :=
  List.ofFn fun place : Fin (side * side) => layout.tile place.divNat place.modNat

/-- The layout uses each of the tiles once, in some orientation. -/
def Uses (tiles : List (Tile size)) : Prop :=
  ∃ turned : List (Tile size), List.Forall₂ Tile.Turned tiles turned ∧ turned.Perm layout.tiles

/-- Borders that touch are equal. -/
structure Joined : Prop where
  across : ∀ row (column next : Fin side), column.val + 1 = next.val →
    (layout.tile row column).picture.right = (layout.tile row next).picture.left
  down : ∀ (row below : Fin side) column, row.val + 1 = below.val →
    (layout.tile row column).picture.bottom = (layout.tile below column).picture.top

/-- How often a canonical border occurs among the sides of all tiles. -/
def borderCount (border : Border size) : Nat :=
  (layout.tiles.flatMap Tile.borders).count border

/-- Borders that touch are equal and occur nowhere else, and those on the outside occur only there. -/
structure Clean : Prop extends layout.Joined where
  top : ∀ row column, layout.borderCount (layout.tile row column).picture.top.canonical =
    if row.val = 0 then 1 else 2
  right : ∀ row column, layout.borderCount (layout.tile row column).picture.right.canonical =
    if column.val + 1 = side then 1 else 2
  bottom : ∀ row column, layout.borderCount (layout.tile row column).picture.bottom.canonical =
    if row.val + 1 = side then 1 else 2
  left : ∀ row column, layout.borderCount (layout.tile row column).picture.left.canonical =
    if column.val = 0 then 1 else 2

/-- The layout turned by a quarter to the right, with all of its tiles. -/
def rotate : Layout size side := ⟨fun row column => (layout.tile column.rev row).rotate⟩

/-- The layout mirrored from left to right, with all of its tiles. -/
def flip : Layout size side := ⟨fun row column => (layout.tile row column.rev).flip⟩

/-- The layout turned by every number of quarters, each time after its mirror image. -/
def symmetries : List (Layout size side) := images rotate flip layout

@[simp] theorem tile_rotate (row column : Fin side) :
    layout.rotate.tile row column = (layout.tile column.rev row).rotate := rfl

@[simp] theorem tile_flip (row column : Fin side) :
    layout.flip.tile row column = (layout.tile row column.rev).flip := rfl

theorem squareMotions : SquareMotions (rotate : Layout size side → Layout size side) flip where
  turn_four layout := by
    ext1
    funext row column
    simp [Tile.squareMotions.turn_four]
  mirror_mirror layout := by
    ext1
    funext row column
    simp [Tile.squareMotions.mirror_mirror]
  turn_mirror_turn layout := by
    ext1
    funext row column
    simp [Tile.squareMotions.turn_mirror_turn]

section Places

/-- The number of a cell, row by row. -/
def place (row column : Fin side) : Nat := row.val * side + column.val

variable (row column : Fin side)

theorem place_div : place row column / side = row.val := by
  rw [place, Nat.mul_comm, Nat.mul_add_div row.pos, Nat.div_eq_of_lt column.isLt, Nat.add_zero]

theorem place_mod : place row column % side = column.val := by
  rw [place, Nat.mul_comm, Nat.mul_add_mod, Nat.mod_eq_of_lt column.isLt]

theorem place_lt : place row column < side * side := by
  have := Nat.mul_le_mul_right side row.isLt
  rw [Nat.succ_mul] at this
  have := column.isLt
  unfold place
  omega

theorem exists_place {number : Nat} (inside : number < side * side) :
    ∃ row column : Fin side, place row column = number := by
  have positive : 0 < side := Nat.pos_of_lt_mul_left inside
  refine ⟨⟨number / side, Nat.div_lt_of_lt_mul inside⟩, ⟨number % side, Nat.mod_lt _ positive⟩, ?_⟩
  exact Nat.div_add_mod' number side

end Places

@[simp] theorem length_tiles : layout.tiles.length = side * side := by
  simp [tiles]

theorem getElem?_tiles (row column : Fin side) :
    layout.tiles[place row column]? = some (layout.tile row column) := by
  have rowBack : (⟨place row column, place_lt row column⟩ : Fin (side * side)).divNat = row :=
    Fin.ext (place_div row column)
  have columnBack : (⟨place row column, place_lt row column⟩ : Fin (side * side)).modNat = column :=
    Fin.ext (place_mod row column)
  rw [tiles, List.getElem?_ofFn, dif_pos (place_lt row column), rowBack, columnBack]

theorem mem_tiles {tile : Tile size} :
    tile ∈ layout.tiles ↔ ∃ row column, layout.tile row column = tile := by
  constructor
  · intro member
    obtain ⟨number, found⟩ := List.mem_iff_getElem?.mp member
    have inside : number < side * side := by
      simpa using (List.getElem?_eq_some_iff.mp found).1
    obtain ⟨row, column, rfl⟩ := exists_place inside
    rw [getElem?_tiles, Option.some_inj] at found
    exact ⟨row, column, found⟩
  · rintro ⟨row, column, rfl⟩
    exact List.mem_of_getElem? (layout.getElem?_tiles row column)

/-- Every list of the right length is a layout row by row. -/
theorem exists_tiles_eq {cells : List (Tile size)} (length : cells.length = side * side) :
    ∃ layout : Layout size side, layout.tiles = cells := by
  have inside (row column : Fin side) : place row column < cells.length := length ▸ place_lt row column
  refine ⟨⟨fun row column => cells.get ⟨place row column, inside row column⟩⟩, ?_⟩
  refine List.ext_getElem? fun number => ?_
  by_cases within : number < side * side
  · obtain ⟨row, column, rfl⟩ := exists_place within
    rw [getElem?_tiles, List.getElem?_eq_getElem (inside row column)]
    rfl
  · rw [List.getElem?_eq_none (by simpa using within), List.getElem?_eq_none (by omega)]

/-- A sum over the tiles row by row. -/
theorem sum_map_tiles (weight : Tile size → Nat) :
    (layout.tiles.map weight).sum = ∑ row, ∑ column, weight (layout.tile row column) := by
  rw [tiles, List.map_ofFn, List.sum_ofFn, ← Fintype.sum_prod_type',
    ← finProdFinEquiv.symm.sum_comp]
  rfl

theorem borderCount_eq_sum (border : Border size) : layout.borderCount border =
    ∑ row, ∑ column, (layout.tile row column).borders.count border := by
  rw [borderCount, List.count_flatMap]
  exact layout.sum_map_tiles fun tile => tile.borders.count border

@[simp] theorem borderCount_rotate (border : Border size) :
    layout.rotate.borderCount border = layout.borderCount border := by
  have same (row column : Fin side) : (layout.rotate.tile row column).borders.count border =
      (layout.tile column.rev row).borders.count border :=
    (Tile.perm_borders_rotate _).count_eq border
  simp only [borderCount_eq_sum, same]
  rw [sum_comm]
  exact Equiv.sum_comp Fin.revPerm fun row => ∑ column, (layout.tile row column).borders.count border

@[simp] theorem borderCount_flip (border : Border size) :
    layout.flip.borderCount border = layout.borderCount border := by
  have same (row column : Fin side) : (layout.flip.tile row column).borders.count border =
      (layout.tile row column.rev).borders.count border :=
    (Tile.perm_borders_flip _).count_eq border
  simp only [borderCount_eq_sum, same]
  exact sum_congr rfl fun row _ =>
    Equiv.sum_comp Fin.revPerm fun column => (layout.tile row column).borders.count border

variable {layout}

theorem Joined.rotate (joined : layout.Joined) : layout.rotate.Joined where
  across row column next beside := by
    simp only [tile_rotate, Tile.picture_rotate, Picture.right_rotate, Picture.left_rotate]
    exact (joined.down next.rev column.rev row (by simp only [Fin.val_rev]; omega)).symm
  down row below column above := by
    simp only [tile_rotate, Tile.picture_rotate, Picture.bottom_rotate, Picture.top_rotate]
    rw [joined.across column.rev row below above]

theorem Joined.flip (joined : layout.Joined) : layout.flip.Joined where
  across row column next beside := by
    simp only [tile_flip, Tile.picture_flip, Picture.right_flip, Picture.left_flip]
    exact (joined.across row next.rev column.rev (by simp only [Fin.val_rev]; omega)).symm
  down row below column above := by
    simp only [tile_flip, Tile.picture_flip, Picture.bottom_flip, Picture.top_flip]
    rw [joined.down row below column.rev above]

/-- The first line, counted from the other end, is the last one. -/
theorem rev_add_one_eq_iff (line : Fin side) : line.rev.val + 1 = side ↔ line.val = 0 := by
  rw [Fin.val_rev]
  omega

theorem rev_eq_zero_iff (line : Fin side) : line.rev.val = 0 ↔ line.val + 1 = side := by
  rw [Fin.val_rev]
  omega

theorem Clean.rotate (clean : layout.Clean) : layout.rotate.Clean where
  toJoined := clean.toJoined.rotate
  top row column := by
    simp only [borderCount_rotate, tile_rotate, Tile.picture_rotate, Picture.top_rotate,
      Border.canonical_reverse, clean.left]
  right row column := by
    simp only [borderCount_rotate, tile_rotate, Tile.picture_rotate, Picture.right_rotate, clean.top,
      rev_eq_zero_iff]
  bottom row column := by
    simp only [borderCount_rotate, tile_rotate, Tile.picture_rotate, Picture.bottom_rotate,
      Border.canonical_reverse, clean.right]
  left row column := by
    simp only [borderCount_rotate, tile_rotate, Tile.picture_rotate, Picture.left_rotate, clean.bottom,
      rev_add_one_eq_iff]

theorem Clean.flip (clean : layout.Clean) : layout.flip.Clean where
  toJoined := clean.toJoined.flip
  top row column := by
    simp only [borderCount_flip, tile_flip, Tile.picture_flip, Picture.top_flip,
      Border.canonical_reverse, clean.top]
  right row column := by
    simp only [borderCount_flip, tile_flip, Tile.picture_flip, Picture.right_flip, clean.left,
      rev_eq_zero_iff]
  bottom row column := by
    simp only [borderCount_flip, tile_flip, Tile.picture_flip, Picture.bottom_flip,
      Border.canonical_reverse, clean.bottom]
  left row column := by
    simp only [borderCount_flip, tile_flip, Tile.picture_flip, Picture.left_flip, clean.right,
      rev_add_one_eq_iff]

section Corners

/-- A cell at a corner of the square. -/
def AtCorner (row column : Fin side) : Prop :=
  (row.val = 0 ∨ row.val + 1 = side) ∧ (column.val = 0 ∨ column.val + 1 = side)

/-- The first line of a square or the last one. -/
theorem eq_or_eq_rev_iff (positive : 0 < side) (line : Fin side) :
    line.val = 0 ∨ line.val + 1 = side ↔ line = ⟨0, positive⟩ ∨ line = Fin.rev ⟨0, positive⟩ := by
  simp only [Fin.ext_iff, Fin.val_rev]
  omega

/-- The tiles at the corners of the square. -/
def cornerTiles (layout : Layout size side) (positive : 0 < side) : List (Tile size) :=
  let first : Fin side := ⟨0, positive⟩
  [layout.tile first first, layout.tile first first.rev, layout.tile first.rev first,
    layout.tile first.rev first.rev]

theorem mem_cornerTiles {positive : 0 < side} {tile : Tile size} :
    tile ∈ layout.cornerTiles positive ↔
      ∃ row column, AtCorner row column ∧ layout.tile row column = tile := by
  simp only [cornerTiles, AtCorner, eq_or_eq_rev_iff positive, List.mem_cons, List.not_mem_nil, or_false]
  constructor
  · rintro (rfl | rfl | rfl | rfl)
    · exact ⟨_, _, ⟨.inl rfl, .inl rfl⟩, rfl⟩
    · exact ⟨_, _, ⟨.inl rfl, .inr rfl⟩, rfl⟩
    · exact ⟨_, _, ⟨.inr rfl, .inl rfl⟩, rfl⟩
    · exact ⟨_, _, ⟨.inr rfl, .inr rfl⟩, rfl⟩
  · rintro ⟨row, column, ⟨rfl | rfl, rfl | rfl⟩, rfl⟩
    · exact .inl rfl
    · exact .inr (.inl rfl)
    · exact .inr (.inr (.inl rfl))
    · exact .inr (.inr (.inr rfl))

end Corners

end Layout

end PuzzleCalendar.Jigsaw
