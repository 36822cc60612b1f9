import PuzzleCalendar.Input
import PuzzleCalendar.Number.Literal
import PuzzleCalendar.Puzzle

/-! # Depths

A survey lists depths, and its only part counts those that are greater than the one before.
-/

namespace PuzzleCalendar.Depths

/-- The depths of all lines. -/
def parse (text : Text) : Outcome ParseError (List Nat) :=
  Outcome.ofExcept (Input.readLines
    (fun line => (Number.readUnsigned 32 line).mapError Number.LiteralError.message) text)

/-- The number of depths that are greater than the one before. -/
def increases (depths : List Nat) : Nat :=
  (depths.zip depths.tail).countP fun (first, second) => first < second

/-- The survey of depths. -/
def puzzle : Puzzle := Puzzle.ofPart parse fun depths => .ok (toString (increases depths))

end PuzzleCalendar.Depths
