import PuzzleCalendar.Catalogue
import PuzzleCalendar.CommandLine.Report

/-! # The program

A run reads its arguments, makes a registry of the puzzles with the wanted tags, solves what the
configuration selects and reports the results. It fails when a part fails, and a fault ends it at
once.
-/

namespace PuzzleCalendar.CommandLine

/-- Why a run fails. -/
inductive RunError where
  | configuration (message : String)
  | registration (error : RegistrationError)
  | failures (failed total : Nat)
deriving DecidableEq, Repr

/-- The sentence that reports why a run fails. -/
def RunError.message : RunError → String
  | configuration message => s!"Configuration error: {message}"
  | registration error => "Registration error: " ++ error.message
  | failures failed total => s!"{failed} of {total} result(s) failed"

/-- How a run ends. -/
inductive Ending where
  | success
  | failure (error : RunError)
  | usage (error : UsageError)
  | fault
deriving DecidableEq, Repr

/-- The code that the process exits with. -/
def Ending.exitCode : Ending → Nat
  | success => 0
  | failure _ => 1
  | usage .help => 0
  | usage .version => 0
  | usage _ => 2
  | fault => 101

/-- The registry of the puzzles that carry all of some tags. -/
def registryFor (plugins : List Plugin) (tags : List Text) : Except RegistrationError Registry :=
  Registry.empty.registerPlugins (·.carries (tags.map String.ofList)) plugins

/-- The environment of a process. -/
structure Environment where
  home : Option Path
  inputDir : Option Path
deriving DecidableEq, Repr

section

variable {m : Type → Type} [Monad m]

/-- Runs a configuration on a registry. -/
def runRegistry (surroundings : Surroundings m) (print : ReportLine → m Unit)
    (configuration : Configuration) (registry : Registry) : m Ending := do
  let items := workItems registry configuration
  if items.isEmpty then
    print (.output "No solvers found matching the specified filters.")
    pure .success
  else
    let start ← surroundings.now
    if !configuration.quiet then
      print (.output s!"Running {items.length} solver(s)...")
    let store : InputStore := ⟨configuration.inputDir, configuration.inputFile⟩
    let results? ← execute surroundings registry store
      (fun result => print (result.line configuration.quiet)) items
    match results? with
    | none => pure .fault
    | some results =>
      match Summary.ofResults? results with
      | none => pure .fault
      | some summary => do
        let finish ← surroundings.now
        (summary.lines configuration.quiet (finish - start)).forM print
        if summary.failed = 0 then pure .success
        else pure (.failure (.failures summary.failed results.length))

/-- Runs a configuration on the puzzles of a catalogue. -/
def runConfiguration (surroundings : Surroundings m) (print : ReportLine → m Unit)
    (plugins : List Plugin) (configuration : Configuration) : m Ending :=
  match registryFor plugins configuration.tags with
  | .error error => pure (.failure (.registration error))
  | .ok registry => runRegistry surroundings print configuration registry

/-- The version of the program. -/
def version : String := "advent 0.2.0"

/-- The help of the program. -/
def help : List String :=
  [ "Run Advent of Code solvers",
    "",
    "Usage: advent [OPTIONS]",
    "",
    "Options:",
    "  -y, --year <YEAR>            Year to run (runs all years if omitted)",
    "  -d, --day <DAY>              Day to run (runs all days if omitted)",
    "  -p, --part <PART>            Part to run (runs all parts if omitted)",
    "  -t, --tags <TAGS>            Tags to filter solvers (comma-separated, all must match)",
    "      --input-dir <INPUT_DIR>  Directory holding puzzle inputs [env: ADVENT_INPUT_DIR] " ++
      "[default: inputs]",
    "  -i, --input <INPUT>          Read the input for the selected day from this file",
    "  -q, --quiet                  Quiet mode - only output answers",
    "  -v, --verbose...             Increase log verbosity (-v info, -vv debug, -vvv trace)",
    "  -h, --help                   Print help",
    "  -V, --version                Print version" ]

/-- The lines that report an ending. -/
def Ending.lines : Ending → List ReportLine
  | success => []
  | failure error => [.error s!"Error: {error.message}"]
  | usage .help => help.map .output
  | usage .version => [.output version]
  | usage .badValue => [.error "error: invalid value for an argument"]
  | usage .unknownArgument => [.error "error: unexpected argument found"]
  | usage .missingValue => [.error "error: a value is required for an argument"]
  | usage .repeated => [.error "error: an argument cannot be used multiple times"]
  | usage .unneededValue => [.error "error: unexpected value for an argument"]
  | fault => [.error "error: a number left its range"]

/-- Runs the program on the words of a command line. -/
def run (surroundings : Surroundings m) (print : ReportLine → m Unit) (environment : Environment)
    (plugins : List Plugin) (words : List Text) : m Ending := do
  let ending ←
    match Arguments.read words with
    | .error error => pure (.usage error)
    | .ok arguments =>
      match Configuration.resolve environment.home environment.inputDir arguments with
      | .error error => pure (.failure (.configuration error.message))
      | .ok configuration => runConfiguration surroundings print plugins configuration
  ending.lines.forM print
  pure ending

end

end PuzzleCalendar.CommandLine
