import PuzzleCalendar.Input
import PuzzleCalendar.Puzzle

/-! # Boarding passes

A pass spells a seat number in ten bits. The first part looks for the highest number, the second one
for the free seat between two taken ones.
-/

namespace PuzzleCalendar.BoardingPass

open Text

/-- Why a line is no boarding pass. -/
inductive PassError where
  | length (bytes : Nat)
  | unexpected (char : Char)
deriving DecidableEq, Repr

/-- The sentence that reports a pass error. -/
def PassError.message : PassError → String
  | length bytes => s!"boarding pass must be 10 characters, got {bytes}"
  | unexpected char => "unexpected boarding pass character " ++ quotedChar char

/-- The bit that a letter stands for: the back and the right half are the upper ones. -/
def bit? (char : Char) : Option Nat :=
  match char with
  | 'F' | 'L' => some 0
  | 'B' | 'R' => some 1
  | _ => none

/-- Reads bits onto a number, the highest first. -/
def readBits (number : Nat) : Text → Except PassError Nat
  | [] => .ok number
  | char :: pass =>
    match bit? char with
    | some bit => readBits (2 * number + bit) pass
    | none => .error (.unexpected (leadByte char))

/-- The seat number of a pass. -/
def seatNumber (pass : Text) : Except PassError Nat :=
  if byteLength pass = 10 then readBits 0 pass else .error (.length (byteLength pass))

/-- The seat numbers of all lines in rising order. -/
def parse (text : Text) : Outcome ParseError (List Nat) :=
  Outcome.ofExcept do
    let seats ← Input.readLines (fun line => (seatNumber line).mapError PassError.message) text
    pure (seats.mergeSort (· ≤ ·))

/-- The first number of a rising list that is missing between two neighbours. -/
def gap? : List Nat → Option Nat
  | first :: second :: seats =>
    if second - first = 2 then some (first + 1) else gap? (second :: seats)
  | _ => none

/-- The highest seat number. -/
def highest (seats : List Nat) : Outcome SolveError String := do
  pure (toString (← Outcome.orReport (.noSolution "no boarding passes") seats.getLast?))

/-- The free seat between two taken ones. -/
def freeSeat (seats : List Nat) : Outcome SolveError String := do
  pure (toString (← Outcome.orReport (.noSolution "no free seat between two taken ones") (gap? seats)))

/-- The boarding passes. -/
def puzzle : Puzzle := Puzzle.ofParts parse highest freeSeat

end PuzzleCalendar.BoardingPass
