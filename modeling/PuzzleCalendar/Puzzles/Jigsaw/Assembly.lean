import PuzzleCalendar.Puzzles.Jigsaw.Picture

/-! # Assembling tiles

Tiles touch along equal borders. A border that only one tile carries lies on the outside of the whole
picture, and a tile with two shared borders is a corner. The first corner starts the picture, and every
further cell, row by row, takes the first unused tile with an orientation that fits the cells to its
left and above it.
-/

namespace PuzzleCalendar.Jigsaw

/-- A picture with a number. -/
structure Tile (size : Nat) where
  id : Nat
  picture : Picture size
deriving DecidableEq

/-- The canonical borders of a tile: top, right, bottom and left. -/
def Tile.borders {size : Nat} (tile : Tile size) : List (Border size) :=
  [tile.picture.top, tile.picture.right, tile.picture.bottom, tile.picture.left].map
    Border.canonical

/-- The canonical borders of a tile, whose picture needs a first and a last row for them. -/
def Tile.borders? {size : Nat} (tile : Tile size) : Option (List (Border size)) :=
  if 0 < size then some tile.borders else none

/-- Tiles of one size with the canonical borders of all of them. -/
structure Box where
  size : Nat
  tiles : List (Tile size)
  borders : List (Border size)

/-- Why no picture can be assembled. -/
inductive AssemblyError where
  | notSquare (tiles : Nat)
  | noCorner
  | cornerTurnsNowhere (id : Nat)
  | nothingFits (row column : Nat)
deriving DecidableEq, Repr

/-- The sentence that reports an assembly error. -/
def AssemblyError.message : AssemblyError → String
  | notSquare tiles => s!"{tiles} tiles do not form a square"
  | noCorner => "no corner tile"
  | cornerTurnsNowhere id => s!"tile {id} cannot start"
  | nothingFits row column => s!"no tile fits at row {row}, column {column}"

/-- The place of a cell inside a picture of `size` rows, counted without the border. -/
def inside {size : Nat} (place : Fin (size - 2)) : Fin size :=
  ⟨place.val + 1, by omega⟩

namespace Box

/-- The box of a list of tiles. -/
def ofTiles {size : Nat} (tiles : List (Tile size)) : Box :=
  ⟨size, tiles, tiles.flatMap Tile.borders⟩

/-- The box of a list of tiles, when each has its borders. -/
def ofTiles? {size : Nat} (tiles : List (Tile size)) : Option Box :=
  (tiles.mapM Tile.borders?).map fun borders => ⟨size, tiles, borders.flatten⟩

theorem ofTiles?_eq_some {size : Nat} (rows : 0 < size) (tiles : List (Tile size)) :
    ofTiles? tiles = some (ofTiles tiles) := by
  have borders : (Tile.borders? : Tile size → _) = fun tile => some tile.borders :=
    funext fun _ => if_pos rows
  have all : tiles.mapM (fun tile => some tile.borders) = some (tiles.map Tile.borders) :=
    List.mapM_pure
  rw [ofTiles?, borders, all, Option.map_some, ofTiles, List.flatMap_def]

/-- How often a canonical border occurs among the sides of all tiles. -/
def borderCount (box : Box) (border : Border box.size) : Nat :=
  box.borders.count border

/-- The border occurs on one side of one tile only. -/
def isOuter (box : Box) (border : Border box.size) : Bool :=
  box.borderCount border.canonical == 1

/-- The tiles with two borders that occur more than once. -/
def corners (box : Box) : List (Tile box.size) :=
  box.tiles.filter fun tile =>
    (tile.borders.filter fun border => 1 < box.borderCount border).length == 2

/-- The side of the square that the tiles fill. -/
def side? (box : Box) : Option Nat :=
  match (List.range' 1 box.tiles.length).find? fun side => box.tiles.length ≤ side * side with
  | some side => if side * side = box.tiles.length then some side else none
  | none => none

/-- A picture fits a cell when its left and its top border equal those of the neighbours, and lie on
the outside where there is no neighbour. -/
def fits (box : Box) (left above : Option (Border box.size)) (picture : Picture box.size) : Bool :=
  side left picture.left && side above picture.top
where
  /-- One side against the border that it has to meet. -/
  side : Option (Border box.size) → Border box.size → Bool
    | some wanted, border => border == wanted
    | none, border => box.isOuter border

/-- The first tile outside `placed` that fits, turned so that it does. -/
def next? (box : Box) (placed : List (Tile box.size)) (left above : Option (Border box.size)) :
    Option (Tile box.size) :=
  box.tiles.findSome? fun tile =>
    if placed.any fun other => other.id == tile.id then none
    else
      (tile.picture.orientations.find? (box.fits left above)).map fun picture =>
        { tile with picture }

/-- The border that the next cell meets on its left, which is that of the latest tile unless the cell starts
a row. -/
def leftBorder? {size : Nat} (side : Nat) (placed : List (Tile size)) : Option (Border size) :=
  if starts : placed.length % side = 0 then none
  else
    have nonempty : placed ≠ [] := by
      rintro rfl
      exact starts (Nat.zero_mod side)
    some (placed.head nonempty).picture.right

/-- The border that the next cell meets above, which is that of the tile placed a row earlier unless the cell
is in the first row. -/
def aboveBorder? {size : Nat} (side : Nat) (placed : List (Tile size)) : Option (Border size) :=
  if first : placed.length / side = 0 then none
  else
    have within : side - 1 < placed.length := by
      obtain ⟨positive, row⟩ := Nat.div_ne_zero_iff.mp first
      omega
    some (placed.get ⟨side - 1, within⟩).picture.bottom

/-- Places as many further tiles as the first number says. `placed` holds the tiles placed so far, the
latest one first, in rows of `side` cells. -/
def fill (box : Box) (side : Nat) :
    Nat → List (Tile box.size) → Except AssemblyError (List (Tile box.size))
  | 0, placed => .ok placed.reverse
  | cells + 1, placed =>
    match box.next? placed (leftBorder? side placed) (aboveBorder? side placed) with
    | none => .error (.nothingFits (placed.length / side) (placed.length % side))
    | some tile => box.fill side cells (tile :: placed)

/-- The placed tiles row by row with the side of the square that they fill. -/
def assemble (box : Box) : Except AssemblyError (Nat × List (Tile box.size)) := do
  let side ← match box.side? with
    | some side => pure side
    | none => .error (.notSquare box.tiles.length)
  let corner ← match box.corners with
    | corner :: _ => pure corner
    | [] => .error .noCorner
  let start ← match corner.picture.orientations.find? (box.fits none none) with
    | some picture => pure { corner with picture }
    | none => .error (.cornerTurnsNowhere corner.id)
  pure (side, ← box.fill side (side * side - 1) [start])

/-- The rows of some tiles without their borders, next to each other. -/
def joinedLines {size : Nat} (tiles : List (Tile size)) : List (List Bool) :=
  List.ofFn fun line : Fin (size - 2) =>
    tiles.flatMap fun tile => (tile.picture.rows.get (inside line)).toList.extract 1 (size - 1)

/-- The rows of the whole picture: those of the tiles of each row of the square, below each other. -/
def stitchedRows (size side : Nat) (placed : List (Tile size)) : List (List Bool) :=
  (List.ofFn fun row : Fin side => joinedLines ((placed.drop (row.val * side)).take side)).flatten

/-- The whole picture without the borders of its tiles. It is dark unless the tiles fill the square. -/
def stitch (size side : Nat) (placed : List (Tile size)) : Picture (side * (size - 2)) :=
  (Picture.ofRows? (side * (size - 2)) (stitchedRows size side placed)).getD (Picture.ofFn fun _ _ => false)

end Box

end PuzzleCalendar.Jigsaw
