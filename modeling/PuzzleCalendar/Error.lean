/-! # Errors of reading and solving

Each error is a cause, and `message` is the sentence that reports it.
-/

namespace PuzzleCalendar

/-- Why a puzzle input is refused. -/
inductive ParseError where
  | invalidFormat (detail : String)
  | invalidLine (line : Nat) (detail : String)
  | missingData (detail : String)
  | other (detail : String)
deriving DecidableEq, Repr

/-- The sentence that reports a parse error. -/
def ParseError.message : ParseError → String
  | invalidFormat detail => s!"Invalid format: {detail}"
  | invalidLine line detail => s!"Invalid input on line {line}: {detail}"
  | missingData detail => s!"Missing data: {detail}"
  | other detail => s!"Parse error: {detail}"

/-- Why a part has no answer. -/
inductive SolveError where
  | partNotImplemented (part : Nat)
  | partOutOfRange (part : Nat)
  | noSolution (detail : String)
  | solveFailed (cause : String)
deriving DecidableEq, Repr

/-- The sentence that reports a solve error. -/
def SolveError.message : SolveError → String
  | partNotImplemented part => s!"Part {part} is not implemented"
  | partOutOfRange part => s!"Part {part} is out of range"
  | noSolution detail => s!"No solution: {detail}"
  | solveFailed cause => s!"Solve failed: {cause}"

/-- Why a registry has no answer for a day. -/
inductive LookupError where
  | notFound (year day : Nat)
  | invalidYearDay (year day : Nat)
  | parse (cause : ParseError)
  | solve (cause : SolveError)
deriving DecidableEq, Repr

/-- The sentence that reports a lookup error. -/
def LookupError.message : LookupError → String
  | notFound year day => s!"Solver not found for year {year} day {day}"
  | invalidYearDay year day => s!"Invalid year {year} day {day}"
  | parse cause => "Parse error: " ++ cause.message
  | solve cause => "Solve error: " ++ cause.message

/-- Why a puzzle cannot be registered. -/
inductive RegistrationError where
  | duplicateSolver (year day : Nat)
  | invalidYearDay (year day : Nat)
deriving DecidableEq, Repr

/-- The sentence that reports a registration error. -/
def RegistrationError.message : RegistrationError → String
  | duplicateSolver year day => s!"Duplicate solver registration for year {year} day {day}"
  | invalidYearDay year day => s!"Invalid year {year} day {day}"

end PuzzleCalendar
