import PuzzleCalendar.Input
import PuzzleCalendar.Number.Literal
import PuzzleCalendar.Number.Width
import PuzzleCalendar.Puzzle

/-! # Number cipher

After a preamble, every number ought to be the sum of two different numbers among those right before
it. The first part finds the first number that is not, the second one finds neighbouring numbers that
sum to it. The number is remembered once it is found.

A search gives nothing where a sum on its way is no word.
-/

namespace PuzzleCalendar.Cipher

/-- The numbers, the length of the preamble and the invalid number once it is known. -/
structure Transmission where
  numbers : List Nat
  preamble : Nat
  invalid? : Option Nat
deriving DecidableEq, Repr

/-- Some later number differs from `first` and makes the sum with it. -/
def pairsWith? (first sum : Nat) : List Nat → Option Bool
  | [] => some false
  | second :: rest =>
    if first = second then pairsWith? first sum rest
    else
      match Number.word64? (first + second) with
      | none => none
      | some total => if total = sum then some true else pairsWith? first sum rest

/-- Two different numbers have the sum. -/
def isPairSum? (sum : Nat) : List Nat → Option Bool
  | [] => some false
  | first :: rest =>
    match pairsWith? first sum rest with
    | some false => isPairSum? sum rest
    | found => found

/-- The first number that is not the sum of two different numbers among the `preamble` ones before
it. -/
def firstInvalid? (preamble : Nat) : List Nat → Option (Option Nat)
  | [] => some none
  | number :: rest =>
    match (number :: rest).drop preamble with
    | [] => some none
    | candidate :: _ =>
      match isPairSum? candidate ((number :: rest).take preamble) with
      | none => none
      | some true => firstInvalid? preamble rest
      | some false => some (some candidate)

/-- Neighbouring numbers that begin at `start`, with their sum. -/
structure Window where
  start : Nat
  sum : Nat
deriving DecidableEq, Repr

/-- The window without the numbers at its start that take it above the target; the number at `last`
stays. -/
def Window.shrink? (numbers : Array Nat) (target last : Nat) (window : Window) : Option Window :=
  if target < window.sum ∧ window.start < last then do
    let first ← numbers[window.start]?
    let sum ← Number.difference? window.sum first
    Window.shrink? numbers target last ⟨window.start + 1, sum⟩
  else some window
termination_by last - window.start

/-- At least two neighbouring numbers with the sum `target`, of which the last is at `last` or later; the
window holds those right before `last` that may belong to them. -/
def contiguousFrom? (numbers : Array Nat) (target : Nat) (window : Window) (last : Nat) :
    Option (Option (List Nat)) :=
  if inside : last < numbers.size then do
    let sum ← Number.word64? (window.sum + numbers[last])
    let window ← Window.shrink? numbers target last { window with sum }
    if window.sum = target ∧ window.start < last then
      some (some (numbers.extract window.start (last + 1)).toList)
    else contiguousFrom? numbers target window (last + 1)
  else some none
termination_by numbers.size - last

/-- At least two neighbouring numbers with the sum `target`. -/
def contiguous? (target : Nat) (numbers : List Nat) : Option (Option (List Nat)) :=
  contiguousFrom? numbers.toArray target ⟨0, 0⟩ 0

/-- The length of the preamble. -/
def preamble : Nat := 25

/-- The numbers of all lines, which go on after the preamble. -/
def parse (text : Text) : Outcome ParseError Transmission :=
  Outcome.ofExcept do
    let numbers ← Input.readLines
      (fun line => (Number.readUnsigned 64 line).mapError Number.LiteralError.message) text
    if numbers.length ≤ preamble then
      .error (.missingData s!"need more than {preamble} numbers, got {numbers.length}")
    else pure { numbers, preamble, invalid? := none }

/-- The invalid number, and the transmission that remembers it. -/
def Transmission.invalid (transmission : Transmission) : Outcome SolveError Nat × Transmission :=
  match transmission.invalid? with
  | some invalid => (.ok invalid, transmission)
  | none =>
    match firstInvalid? transmission.preamble transmission.numbers with
    | none => (Outcome.fault, transmission)
    | some none => (Outcome.report (.noSolution "every number follows the rule"), transmission)
    | some (some invalid) => (.ok invalid, { transmission with invalid? := some invalid })

/-- The sum of the least and the greatest of the neighbouring numbers that sum to `invalid`. -/
def weakness (numbers : List Nat) (invalid : Nat) : Outcome SolveError Nat := do
  match ← Outcome.orFault (contiguous? invalid numbers) with
  | none => Outcome.report (.noSolution "no qualifying contiguous range found")
  | some range =>
    Outcome.orFault (Number.word64? (range.min?.getD 0 + range.max?.getD 0))

/-- The invalid number. -/
def findInvalid (transmission : Transmission) : Outcome SolveError String × Transmission :=
  let (invalid, transmission) := transmission.invalid
  (invalid.map toString, transmission)

/-- The weakness that the invalid number shows. -/
def findWeakness (transmission : Transmission) : Outcome SolveError String × Transmission :=
  let (invalid, transmission) := transmission.invalid
  (do pure (toString (← weakness transmission.numbers (← invalid))), transmission)

/-- The number cipher. -/
def puzzle : Puzzle := Puzzle.twoParts parse findInvalid findWeakness

end PuzzleCalendar.Cipher
