import PuzzleCalendar.Automaton
import PuzzleCalendar.Input
import PuzzleCalendar.Number.Width
import PuzzleCalendar.Puzzle

/-! # Cubes

Cubes fill a space of two or more dimensions, and each is a neighbour of those that differ from it by
at most one along every axis. An active cube stays active with two or three active neighbours, and an
inactive one becomes active with three. A slice gives the cubes that are active at the start.
-/

namespace PuzzleCalendar.Cubes

/-- The coordinates of a cube, one for each axis. -/
abbrev Cube := List Int

/-- The step that a number codes: its digits to the base three, the lowest first, each less one. -/
def stepOf : Nat → Nat → Cube
  | 0, _ => []
  | dimensions + 1, code => ((code % 3 : Nat) - 1 : Int) :: stepOf dimensions (code / 3)

/-- Every list of `dimensions` steps of at most one. -/
def steps (dimensions : Nat) : List Cube :=
  (List.range (Nat.pow 3 dimensions)).map (stepOf dimensions)

/-- The steps to the neighbours of a cube. -/
def neighbourSteps (dimensions : Nat) : List Cube :=
  (steps dimensions).filter fun step => step.any (· != 0)

/-- The cube a step away, where 32 bits hold its coordinates. -/
def shift? (cube step : Cube) : Option Cube :=
  (cube.zip step).mapM fun (coordinate, change) => Number.int32? (coordinate + change)

/-- The rule of the cubes. -/
def automaton (dimensions : Nat) : Automaton Cube where
  neighbours? cube := (neighbourSteps dimensions).mapM (shift? cube)
  lives active count := count = 3 || (count = 2 && active)

/-- A cube of the starting slice, which lies at zero along the other axes. -/
def embed (dimensions : Nat) (cell : Int × Int) : Cube :=
  [cell.1, cell.2] ++ List.replicate (dimensions - 2) 0

/-- The number of active cubes after some cycles. -/
def simulate? (dimensions : Nat) (slice : List (Int × Int)) (cycles : Nat) : Option Nat := do
  let start := Std.HashSet.ofList (slice.map (embed dimensions))
  pure (← (automaton dimensions).run? cycles start).size

/-- A cube of the map: active or not. -/
def cell? (byte : UInt8) : Option Bool :=
  match Text.ofByte byte with
  | '#' => some true
  | '.' => some false
  | _ => none

/-- The active cells of a map, row by row, each with its place in its row and the row. -/
def activeCells (rows : List (List Bool)) : List (Int × Int) :=
  rows.zipIdx.flatMap fun (row, y) =>
    row.zipIdx.filterMap fun (active, x) => if active then some (x, y) else none

/-- The active cells of the starting slice. -/
def parse (text : Text) : Outcome ParseError (List (Int × Int)) :=
  Outcome.ofExcept ((Input.cellGrid "cube" cell? text).map activeCells)

/-- The number of active cubes after six cycles. -/
def answer (dimensions : Nat) (slice : List (Int × Int)) : Outcome SolveError String := do
  pure (toString (← Outcome.orFault (simulate? dimensions slice 6)))

/-- The cubes. -/
def puzzle : Puzzle := Puzzle.ofParts parse (answer 3) (answer 4)

end PuzzleCalendar.Cubes
