import PuzzleCalendar.CommandLine.Execution

/-! # Reports

A full report shows each result with its day and its times and ends with a summary. A quiet one shows
the answers alone. Failures go to the error output.
-/

namespace PuzzleCalendar.CommandLine

/-- One line for the output or for the error output. -/
inductive ReportLine where
  | output (text : String)
  | error (text : String)
deriving DecidableEq, Repr

/-- The times of a solved part. -/
def PartResult.times (result : PartResult) : String :=
  let parse := (result.parseTime.map fun time => s!"parse: {time.text}, ").getD ""
  s!"{parse}solve: {result.solveTime.text}"

/-- The line of a result in a full report. -/
def PartResult.fullLine (result : PartResult) : ReportLine :=
  let head := s!"{showDate result.date} Part {result.part}"
  match result.answer with
  | .ok answer => .output s!"{head}: {answer} ({result.times})"
  | .error error => .error s!"{head}: Error - {error.message}"

/-- The line of a result in a quiet report. -/
def PartResult.quietLine (result : PartResult) : ReportLine :=
  match result.answer with
  | .ok answer => .output answer
  | .error error => .error s!"Error: {error.message}"

/-- The line of a result. -/
def PartResult.line (quiet : Bool) (result : PartResult) : ReportLine :=
  if quiet then result.quietLine else result.fullLine

/-- The lines of a summary, which a quiet report does not have. -/
def Summary.lines (quiet : Bool) (elapsed : Duration) (summary : Summary) : List ReportLine :=
  if quiet then []
  else
    [ .output "",
      .output "--- Summary ---",
      .output s!"Solvers: {summary.solved} solved, {summary.failed} failed",
      .output s!"Total parse time: {summary.parseTime.text}",
      .output s!"Total solve time: {summary.solveTime.text}",
      .output s!"Elapsed wall-clock time: {elapsed.text}" ]

end PuzzleCalendar.CommandLine
