import PuzzleCalendar.Input
import PuzzleCalendar.Number.Width
import PuzzleCalendar.Puzzle

/-! # Sliding through a forest

A map of trees repeats to the right forever. A slope moves right and down by fixed steps, and the
parts count the trees that it meets on the way to the bottom.
-/

namespace PuzzleCalendar.Forest

/-- The columns to the right and the rows down of one step. -/
structure Slope where
  right : Nat
  down : Nat
deriving DecidableEq, Repr

/-- The slope of the first part. -/
def mainSlope : Slope := ⟨3, 1⟩

/-- The slopes of the second part. -/
def slopes : List Slope := [⟨1, 1⟩, ⟨3, 1⟩, ⟨5, 1⟩, ⟨7, 1⟩, ⟨1, 2⟩]

/-- The first element and every `step`-th one after it. -/
def everyNth {α : Type} (step : Nat) : List α → List α
  | [] => []
  | first :: rest => first :: everyNth step (rest.drop (step - 1))
termination_by list => list.length
decreasing_by
  rw [List.length_drop, List.length_cons]
  omega

/-- Whether a tree stands at a column of a row that repeats to the right. A row without columns has no
place for it. -/
def treeAt? (row : List Bool) (column : Nat) : Option Bool :=
  if row.isEmpty then none else row[column % row.length]?

/-- The number of trees on a slope that starts at the top left. A slope that does not go down, or a column
that 64 bits do not hold, has none. -/
def treesOnSlope? (trees : List (List Bool)) (slope : Slope) : Option Nat :=
  if slope.down = 0 then none
  else do
    let met ← (everyNth slope.down trees).zipIdx.mapM fun (row, step) => do
      treeAt? row (← Number.word64? (step * slope.right))
    pure (met.count true)

/-- A cell of the map: a tree or open ground. -/
def cell? (byte : UInt8) : Option Bool :=
  if Text.ofByte byte = '#' then some true
  else if Text.ofByte byte = '.' then some false
  else none

/-- The map of trees. -/
def parse (text : Text) : Outcome ParseError (List (List Bool)) :=
  Outcome.ofExcept (Input.cellGrid "map cell" cell? text)

/-- The number of trees on the main slope. -/
def treesMet (trees : List (List Bool)) : Outcome SolveError String := do
  pure (toString (← Outcome.orFault (treesOnSlope? trees mainSlope)))

/-- The product of the numbers of trees on all slopes. -/
def treesProduct (trees : List (List Bool)) : Outcome SolveError String := do
  let counts ← Outcome.orFault (slopes.mapM (treesOnSlope? trees))
  let product ← Outcome.orFault (Number.product64? counts)
  pure (toString product)

/-- The map of trees. -/
def puzzle : Puzzle := Puzzle.ofParts parse treesMet treesProduct

end PuzzleCalendar.Forest
