import PuzzleCalendar.Error
import PuzzleCalendar.Outcome
import PuzzleCalendar.Text.Basic

/-! # Puzzles and sessions

A puzzle reads its input into shared data once and then solves numbered parts against that data. A
part may change the shared data, and the next part sees the change. A session is one puzzle with the
shared data of one input.
-/

namespace PuzzleCalendar

/-- A reader of inputs and a solver of numbered parts. -/
structure Puzzle where
  /-- What the reader makes of an input and the parts work on. -/
  Shared : Type
  /-- The number of parts. -/
  parts : Nat
  /-- Reads an input. -/
  parse : Text → Outcome ParseError Shared
  /-- Solves a part and gives the shared data as the part leaves it. -/
  solve : Nat → Shared → Outcome SolveError String × Shared

namespace Puzzle

/-- A puzzle of one part, which leaves the shared data alone. -/
def ofPart {Shared : Type} (parse : Text → Outcome ParseError Shared)
    (only : Shared → Outcome SolveError String) : Puzzle where
  Shared := Shared
  parts := 1
  parse := parse
  solve part shared :=
    match part with
    | 1 => (only shared, shared)
    | _ => (Outcome.report (.partNotImplemented part), shared)

/-- A puzzle of two parts. -/
def twoParts {Shared : Type} (parse : Text → Outcome ParseError Shared)
    (first second : Shared → Outcome SolveError String × Shared) : Puzzle where
  Shared := Shared
  parts := 2
  parse := parse
  solve part shared :=
    match part with
    | 1 => first shared
    | 2 => second shared
    | _ => (Outcome.report (.partNotImplemented part), shared)

/-- A puzzle of two parts that leave the shared data alone. -/
def ofParts {Shared : Type} (parse : Text → Outcome ParseError Shared)
    (first second : Shared → Outcome SolveError String) : Puzzle :=
  twoParts parse (fun shared => (first shared, shared)) (fun shared => (second shared, shared))

/-- Solves a part of the puzzle and refuses any other number. -/
def solveInRange (puzzle : Puzzle) (part : Nat) (shared : puzzle.Shared) :
    Outcome SolveError String × puzzle.Shared :=
  if 1 ≤ part ∧ part ≤ puzzle.parts then puzzle.solve part shared
  else (Outcome.report (.partOutOfRange part), shared)

end Puzzle

/-- One puzzle with the shared data of one input, opened for a day. -/
structure Session where
  puzzle : Puzzle
  year : Nat
  day : Nat
  shared : puzzle.Shared

namespace Session

/-- Reads an input of a puzzle. -/
def start (puzzle : Puzzle) (year day : Nat) (input : Text) : Outcome ParseError Session :=
  match puzzle.parse input with
  | .ok shared => .ok { puzzle, year, day, shared }
  | .error failure => .error failure

/-- Solves one part and gives the session as the part leaves it. -/
def solve (session : Session) (part : Nat) : Outcome SolveError String × Session :=
  let (outcome, shared) := session.puzzle.solveInRange part session.shared
  (outcome, { session with shared })

/-- Solves parts one after the other on the same session. -/
def solveAll (session : Session) : List Nat → List (Outcome SolveError String)
  | [] => []
  | part :: rest =>
    let (outcome, next) := session.solve part
    outcome :: next.solveAll rest

end Session

end PuzzleCalendar
