import PuzzleCalendar.Input
import PuzzleCalendar.Number.Literal
import PuzzleCalendar.Number.Width
import PuzzleCalendar.Puzzle

/-! # Expenses

A report lists amounts. The parts look for two and for three entries of the report that sum to 2020
and answer with their product. The search closes in on a sorted list from both ends.

A search gives nothing where a place on its way is none of the list, or a sum is no word.
-/

namespace PuzzleCalendar.Expenses

/-- The wanted sum. -/
def target : Nat := 2020

/-- Two entries with the wanted sum between the places `low` and `high` of a sorted report, if there are
any. A sum that is too small gives up the lower end and one that is too large the upper end. -/
def closeIn? (entries : Array Nat) (sum low high : Nat) : Option (Option (Nat × Nat)) :=
  if low < high then do
    let lower ← entries[low]?
    let upper ← entries[high]?
    match compare (← Number.word64? (lower + upper)) sum with
    | .lt => closeIn? entries sum (low + 1) high
    | .gt =>
      match below : Number.difference? high 1 with
      | some next =>
        have := Number.difference?_eq_some_iff.mp below
        closeIn? entries sum low next
      | none => none
    | .eq => some (some (lower, upper))
  else some none
termination_by high - low
decreasing_by all_goals omega

/-- Two entries at different places of a sorted report with the sum `sum`, if there are any. -/
def pairWithSum? (sorted : List Nat) (sum : Nat) : Option (Option (Nat × Nat)) :=
  match Number.difference? sorted.length 1 with
  | some last => closeIn? sorted.toArray sum 0 last
  | none => some none

/-- Three entries at different places of a sorted report with the sum `sum`, if there are any. -/
def tripleWithSum? : List Nat → Nat → Option (Option (Nat × Nat × Nat))
  | [], _ => some none
  | entry :: rest, sum =>
    match Number.difference? sum entry with
    | none => tripleWithSum? rest sum
    | some remaining => do
      match ← pairWithSum? rest remaining with
      | some (second, third) => some (some (entry, second, third))
      | none => tripleWithSum? rest sum

/-- The entries of a report in rising order. -/
def parse (text : Text) : Outcome ParseError (List Nat) :=
  Outcome.ofExcept do
    let entries ← Input.readLines
      (fun line => (Number.readUnsigned 32 line).mapError Number.LiteralError.message) text
    pure (entries.mergeSort (· ≤ ·))

/-- The product of two entries with the wanted sum. -/
def pairProduct (entries : List Nat) : Outcome SolveError String := do
  match ← Outcome.orFault (pairWithSum? entries target) with
  | some (first, second) =>
    pure (toString (← Outcome.orFault (Number.product64? [first, second])))
  | none => Outcome.report (.noSolution s!"no two entries sum to {target}")

/-- The product of three entries with the wanted sum. -/
def tripleProduct (entries : List Nat) : Outcome SolveError String := do
  match ← Outcome.orFault (tripleWithSum? entries target) with
  | some (first, second, third) =>
    pure (toString (← Outcome.orFault (Number.product64? [first, second, third])))
  | none => Outcome.report (.noSolution s!"no three entries sum to {target}")

/-- The expense report. -/
def puzzle : Puzzle := Puzzle.ofParts parse pairProduct tripleProduct

end PuzzleCalendar.Expenses
