import PuzzleCalendar.Input
import PuzzleCalendar.Number.Literal
import PuzzleCalendar.Puzzle
import PuzzleCalendar.Text.DecimalDigit

/-! # Password policies

Each line gives two bounds, a letter and a password. The first policy counts the letter in the
password, the second looks for it at the two places that the bounds name.
-/

namespace PuzzleCalendar.PasswordPolicy

open Text

/-- A policy and the password it judges. -/
structure Entry where
  low : Nat
  high : Nat
  letter : Char
  password : Text
deriving DecidableEq, Repr

/-- Why a line is no entry. -/
inductive EntryError where
  | shape (line : Text)
  | bound
deriving DecidableEq, Repr

/-- The sentence that reports an entry error. -/
def EntryError.message : EntryError → String
  | shape line => "expected `lo-hi c: password`, got " ++ quoted line
  | bound => "policy bound out of range"

/-- A letter from a to z. -/
def isLetter (char : Char) : Bool := 'a' ≤ char && char ≤ 'z'

/-- The two bounds as they are written, the letter and the password. -/
def fields? (line : Text) : Option (Text × Text × Char × Text) :=
  let low := line.takeWhile isDecimalDigit
  match line.dropWhile isDecimalDigit with
  | '-' :: rest =>
    let high := rest.takeWhile isDecimalDigit
    match rest.dropWhile isDecimalDigit with
    | ' ' :: letter :: ':' :: ' ' :: password =>
      if !low.isEmpty && !high.isEmpty && isLetter letter && password.all isLetter then
        some (low, high, letter, password)
      else none
    | _ => none
  | _ => none

/-- Reads a bound that an index holds. -/
def readBound (digits : Text) : Except EntryError Nat :=
  (Number.readUnsigned 64 digits).mapError fun _ => .bound

/-- Reads one line. -/
def Entry.read (line : Text) : Except EntryError Entry :=
  match fields? line with
  | none => .error (.shape line)
  | some (low, high, letter, password) => do
    pure { low := ← readBound low, high := ← readBound high, letter, password }

/-- One line with an entry. -/
def Entry.render (entry : Entry) : Text :=
  Nat.toDigits 10 entry.low ++ ['-'] ++ Nat.toDigits 10 entry.high ++
    [' ', entry.letter, ':', ' '] ++ entry.password

/-- The letter occurs as often in the password as the bounds allow. -/
def Entry.meetsCount (entry : Entry) : Bool :=
  let count := entry.password.count entry.letter
  entry.low ≤ count && count ≤ entry.high

/-- The letter stands at a place counted from one. -/
def Entry.letterAt (entry : Entry) (place : Nat) : Bool :=
  match place with
  | 0 => false
  | index + 1 => entry.password[index]? == some entry.letter

/-- The letter stands at exactly one of the two places. -/
def Entry.meetsPlaces (entry : Entry) : Bool :=
  entry.letterAt entry.low != entry.letterAt entry.high

/-- The entries of a list of policies. -/
def parse (text : Text) : Outcome ParseError (List Entry) :=
  Outcome.ofExcept (Input.readLines (fun line => (Entry.read line).mapError EntryError.message) text)

/-- How many passwords meet their policy. -/
def countValid (valid : Entry → Bool) (entries : List Entry) : Outcome SolveError String :=
  .ok (toString (entries.countP valid))

/-- The password policies. -/
def puzzle : Puzzle :=
  Puzzle.ofParts parse (countValid Entry.meetsCount) (countValid Entry.meetsPlaces)

end PuzzleCalendar.PasswordPolicy
