import PuzzleCalendar.CommandLine.Arguments
import PuzzleCalendar.CommandLine.Path

/-! # Configuration

The configuration of a run comes from the command line, from the environment and from defaults, in
this order.
-/

namespace PuzzleCalendar.CommandLine

/-- What to run, and where its inputs are. -/
structure Configuration where
  year : Option Nat
  day : Option Nat
  part : Option Nat
  tags : List Text
  inputDir : Path
  inputFile : Option Path
  quiet : Bool
  logFilter : String
deriving DecidableEq, Repr

/-- Why arguments make no configuration. -/
inductive ConfigurationError where
  /-- An input file needs a single day. -/
  | inputWithoutDay
deriving DecidableEq, Repr

/-- The sentence that reports a configuration error. -/
def ConfigurationError.message : ConfigurationError → String
  | inputWithoutDay => "--input needs a single day; pass --year and --day as well"

/-- The least level of the messages that are logged. -/
def logLevel (verbose : Nat) : String :=
  match verbose with
  | 0 => "warn"
  | 1 => "info"
  | 2 => "debug"
  | _ => "trace"

/-- The directory of the inputs when nothing else names it. -/
def defaultInputDir : Path := "inputs".toList

namespace Configuration

/-- The configuration of arguments, an input directory of the environment and a home directory. -/
def resolve (home? environment? : Option Path) (arguments : Arguments) :
    Except ConfigurationError Configuration :=
  if arguments.input.isSome && (arguments.year.isNone || arguments.day.isNone) then
    .error .inputWithoutDay
  else
    let named := arguments.inputDir <|> environment?.filter (!·.isEmpty)
    .ok {
      year := arguments.year
      day := arguments.day
      part := arguments.part
      tags := arguments.tags
      inputDir := Path.expandHome home? (named.getD defaultInputDir)
      inputFile := arguments.input.map (Path.expandHome home?)
      quiet := arguments.quiet
      logFilter := logLevel arguments.verbose }

end Configuration

end PuzzleCalendar.CommandLine
