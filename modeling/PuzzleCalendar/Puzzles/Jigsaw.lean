import PuzzleCalendar.Input
import PuzzleCalendar.Number.Literal
import PuzzleCalendar.Number.Width
import PuzzleCalendar.Puzzle
import PuzzleCalendar.Puzzles.Jigsaw.Assembly
import PuzzleCalendar.Puzzles.Jigsaw.Monster

/-! # Jigsaws

Each block gives the number and the rows of a tile. The first part multiplies the numbers of the
corners, the second one assembles the picture and measures its roughness.
-/

namespace PuzzleCalendar.Jigsaw

open Text

/-- The number in a header such as the one of tile 17. -/
def headerId? (header : Text) : Option Nat := do
  let id ← dropTail? [':'] (← dropLead? "Tile ".toList header)
  (Number.readUnsigned 64 id).toOption

/-- Reads the cells of a row. -/
def readPixels (id : Nat) : List UInt8 → Except ParseError (List Bool)
  | [] => .ok []
  | byte :: rest =>
    if ofByte byte = '#' then (readPixels id rest).map (true :: ·)
    else if ofByte byte = '.' then (readPixels id rest).map (false :: ·)
    else .error (.invalidFormat s!"tile {id}: unexpected pixel {quotedChar (ofByte byte)}")

/-- The number and the rows of one tile. -/
def readTile : List Text → Except ParseError (Nat × List (List Bool))
  | [] => .error (.missingData "tile")
  | header :: lines =>
    match headerId? header with
    | none => .error (.invalidFormat ("bad tile header " ++ quoted header))
    | some id => do
      let rows ← lines.mapM fun line => readPixels id (bytes line)
      if rows.length < 3 || rows.any fun row => row.length != rows.length then
        .error (.invalidFormat s!"tile {id} is not a square of at least 3 x 3")
      else pure (id, rows)

/-- The tiles with pictures of one size, when their rows give that size to all of them. -/
def tilesOfRows? (size : Nat) (tiles : List (Nat × List (List Bool))) : Option (List (Tile size)) :=
  tiles.mapM fun tile => (Picture.ofRows? size tile.2).map (Tile.mk tile.1)

/-- The tiles of all blocks, which have the size of the first one. -/
def parse (text : Text) : Outcome ParseError Box := do
  match ← Outcome.ofExcept ((Input.blocks text).mapM readTile) with
  | [] => Outcome.report (.missingData "no tiles")
  | first :: rest =>
    let tiles ← Outcome.orReport (.invalidFormat "tiles differ in size")
      (tilesOfRows? first.2.length (first :: rest))
    Outcome.orFault (Box.ofTiles? tiles)

/-- The product of the numbers of the four corners. -/
def cornerProduct (box : Box) : Outcome SolveError String := do
  let corners := box.corners
  if corners.length != 4 then
    Outcome.report (.noSolution s!"expected 4 corner tiles, found {corners.length}")
  else
    let product ← Outcome.orFault (Number.product64? (corners.map Tile.id))
    pure (toString product)

/-- The roughness of the assembled picture. -/
def pictureRoughness (box : Box) : Outcome SolveError String :=
  match box.assemble with
  | .error error => Outcome.report (.noSolution error.message)
  | .ok (side, placed) => do
    match ← Outcome.orFault (Box.stitch box.size side placed).roughness? with
    | some cells => pure (toString cells)
    | none => Outcome.report (.noSolution "no sea monsters in any orientation")

/-- The jigsaw of camera pictures. -/
def puzzle : Puzzle := Puzzle.ofParts parse cornerProduct pictureRoughness

end PuzzleCalendar.Jigsaw
