import PuzzleCalendar.Input
import PuzzleCalendar.Number.Literal
import PuzzleCalendar.Puzzle

/-! # Passports

A passport is a block of `key:value` fields. The first part counts the passports that have all
required fields, the second one those whose values are valid as well.
-/

namespace PuzzleCalendar.Passports

open Text

/-- The value of each key. -/
abbrev Passport := List (Text × Text)

/-- A field whose values are judged. -/
inductive Field where
  | birthYear
  | issueYear
  | expirationYear
  | height
  | hairColor
  | eyeColor
  | passportId
deriving DecidableEq, Repr

namespace Field

/-- The fields that a passport needs. -/
def all : List Field :=
  [birthYear, issueYear, expirationYear, height, hairColor, eyeColor, passportId]

/-- The key of a field. -/
def key : Field → Text
  | birthYear => "byr".toList
  | issueYear => "iyr".toList
  | expirationYear => "eyr".toList
  | height => "hgt".toList
  | hairColor => "hcl".toList
  | eyeColor => "ecl".toList
  | passportId => "pid".toList

end Field

/-- The colors of eyes. -/
def eyeColors : List Text :=
  ["amb", "blu", "brn", "gry", "grn", "hzl", "oth"].map String.toList

/-- A number literal between two bounds. -/
def isWithin (low high : Nat) (text : Text) : Bool :=
  match Number.readUnsigned 32 text with
  | .ok number => low ≤ number && number ≤ high
  | .error _ => false

/-- A year of four characters between two bounds. -/
def isYear (low high : Nat) (value : Text) : Bool :=
  byteLength value = 4 && isWithin low high value

/-- A height in centimeters or in inches. -/
def isHeight (value : Text) : Bool :=
  match dropTail? "cm".toList value with
  | some number => isWithin 150 193 number
  | none =>
    match dropTail? "in".toList value with
    | some number => isWithin 59 76 number
    | none => false

/-- An ASCII digit. -/
def isDigit (char : Char) : Bool := '0' ≤ char && char ≤ '9'

/-- A hash sign and six hexadecimal digits in lower case. -/
def isHairColor : Text → Bool
  | '#' :: digits =>
    digits.length = 6 && digits.all fun char => isDigit char || ('a' ≤ char && char ≤ 'f')
  | _ => false

/-- Nine digits. -/
def isPassportId (value : Text) : Bool := value.length = 9 && value.all isDigit

/-- The values that a field allows. -/
def Field.allows (value : Text) : Field → Bool
  | birthYear => isYear 1920 2002 value
  | issueYear => isYear 2010 2020 value
  | expirationYear => isYear 2020 2030 value
  | height => isHeight value
  | hairColor => isHairColor value
  | eyeColor => eyeColors.contains value
  | passportId => isPassportId value

/-- The passport with a value for a key in place of an earlier one. -/
def Passport.insert (passport : Passport) (field : Text × Text) : Passport :=
  passport.filter (·.1 != field.1) ++ [field]

/-- The passport has every required field. -/
def Passport.isComplete (passport : Passport) : Bool :=
  Field.all.all fun field => (passport.lookup field.key).isSome

/-- The passport has every required field, with a value that the field allows. -/
def Passport.isValid (passport : Passport) : Bool :=
  Field.all.all fun field =>
    match passport.lookup field.key with
    | some value => field.allows value
    | none => false

/-- Reads a field of the passport with a number. -/
def readField (number : Nat) (token : Text) : Except ParseError (Text × Text) :=
  match splitOnce? ':' token with
  | some field => .ok field
  | none =>
    .error (.invalidFormat (s!"passport {number}: expected key:value, got " ++ quoted token))

/-- Reads the passport with a number from its lines. -/
def readPassport (number : Nat) (block : List Text) : Except ParseError Passport := do
  let fields ← (block.flatMap words).mapM (readField number)
  pure (fields.foldl Passport.insert [])

/-- The passports of all blocks, numbered from one. -/
def parse (text : Text) : Outcome ParseError (List Passport) :=
  Outcome.ofExcept (((Input.blocks text).zipIdx 1).mapM fun (block, number) =>
    readPassport number block)

/-- How many passports are as wanted. -/
def countPassports (wanted : Passport → Bool) (passports : List Passport) :
    Outcome SolveError String :=
  .ok (toString (passports.countP wanted))

/-- The passports. -/
def puzzle : Puzzle :=
  Puzzle.ofParts parse (countPassports Passport.isComplete) (countPassports Passport.isValid)

end PuzzleCalendar.Passports
