import PuzzleCalendar.Input
import PuzzleCalendar.Number.Literal
import PuzzleCalendar.Number.Width
import PuzzleCalendar.Puzzle

/-! # Calories

Each block lists the calories that an elf carries. The first part looks for the greatest total, the
second one sums the three greatest.
-/

namespace PuzzleCalendar.Calories

/-- The calories of one elf. -/
def readElf (block : List Text) : Except ParseError (List Nat) :=
  Id.run (Input.collect (fun line =>
    pure ((Number.readUnsigned 64 line).mapError Number.LiteralError.message)) 1 block)

/-- The totals of the elves, each read before the next one. A total that is no word is a fault. -/
def readTotals : List (List Text) → Outcome ParseError (List Nat)
  | [] => .ok []
  | block :: blocks => do
    let calories ← Outcome.ofExcept (readElf block)
    let total ← Outcome.orFault (Number.sum64? calories)
    pure (total :: (← readTotals blocks))

/-- The totals of the elves in falling order. -/
def parse (text : Text) : Outcome ParseError (List Nat) := do
  pure ((← readTotals (Input.blocks text)).mergeSort (· ≥ ·))

/-- The greatest total. -/
def greatest (totals : List Nat) : Outcome SolveError String := do
  pure (toString (← Outcome.orReport (.noSolution "no elves") totals.head?))

/-- The sum of the three greatest totals. -/
def greatestThree (totals : List Nat) : Outcome SolveError String := do
  pure (toString (← Outcome.orFault (Number.sum64? (totals.take 3))))

/-- The calories. -/
def puzzle : Puzzle := Puzzle.ofParts parse greatest greatestThree

end PuzzleCalendar.Calories
