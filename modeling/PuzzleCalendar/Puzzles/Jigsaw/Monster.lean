import PuzzleCalendar.Marks
import PuzzleCalendar.Number.Width
import PuzzleCalendar.Puzzles.Jigsaw.Picture

/-! # Sea monsters

A sea monster is a pattern of cells in a box of three rows and twenty columns. It lies wherever all of
its cells are lit. The roughness of a picture is the number of its lit cells that no monster covers, in
the first orientation that shows one.
-/

namespace PuzzleCalendar.Jigsaw

/-- The cells of a monster by row and column. -/
def monster : List (Nat × Nat) := [
    (0, 18),
    (1, 0), (1, 5), (1, 6), (1, 11), (1, 12), (1, 17), (1, 18), (1, 19),
    (2, 1), (2, 4), (2, 7), (2, 10), (2, 13), (2, 16)]

/-- The cells of a monster whose box starts at a place. -/
def monsterAt (place : Nat × Nat) : List (Nat × Nat) :=
  monster.map fun cell => (place.1 + cell.1, place.2 + cell.2)

/-- The places at which the box of a monster lies in a picture, row by row. -/
def monsterPlaces (size : Nat) : List (Nat × Nat) :=
  (List.range (size + 1 - 3)).flatMap fun row =>
    (List.range (size + 1 - 20)).map fun column => (row, column)

namespace Picture

variable {size : Nat}

/-- Whether all cells of a monster at a place are lit. It looks no further than the first dark cell. -/
def showsAt? (picture : Picture size) (place : Nat × Nat) : Option Bool :=
  (monsterAt place).allM fun cell => picture.cell? cell.1 cell.2

/-- The cells that monsters cover, each of them once, when the picture has all cells that are looked
at. -/
def monsterCells? (picture : Picture size) : Option (List (Nat × Nat)) :=
  (monsterPlaces size).foldlM (fun cells place => do
    if ← picture.showsAt? place then pure (merged cells (monsterAt place)) else pure cells) []

/-- The number of lit cells less those that monsters cover in the first orientation with a monster, when
there is one. A difference below zero is no number. -/
def roughness? (picture : Picture size) : Option (Option Nat) := do
  let first ← picture.orientations.findSomeM? fun turned => do
    let cells ← turned.monsterCells?
    pure (if cells.isEmpty then none else some cells)
  match first with
  | none => pure none
  | some cells => (Number.difference? picture.litCount cells.length).map some

end Picture

end PuzzleCalendar.Jigsaw
