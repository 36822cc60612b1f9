import PuzzleCalendar.CommandLine.FileTree
import PuzzleCalendar.CommandLine.Program

/-! # Entry point

Runs the program on the files, the clock and the outputs of the process.
-/

open PuzzleCalendar CommandLine

/-- The reason that an operating system gives. -/
def reasonOf (details : String) (code : UInt32) : String := s!"{details} (os error {code})"

/-- Reads a file of the operating system. -/
def readSystemFile (path : Path) : IO (Except FileError Text) := do
  try
    pure (FileTree.decode (← IO.FS.readBinFile (String.ofList path)))
  catch
    | .noFileOrDirectory .. => pure (.error .missing)
    | .inappropriateType _ code details => pure (.error (.unreadable (reasonOf details code)))
    | .permissionDenied _ code details => pure (.error (.unreadable (reasonOf details code)))
    | error => pure (.error (.unreadable (toString error)))

/-- The files and the clock of the process. -/
def system : Surroundings IO where
  fileAt := readSystemFile
  now := do pure ((← IO.monoNanosNow) : Int)

/-- Prints a line. -/
def printLine : ReportLine → IO Unit
  | .output text => IO.println text
  | .error text => IO.eprintln text

/-- Runs the program and exits with its code. -/
def main (words : List String) : IO UInt32 := do
  let environment : Environment :=
    { home := (← IO.getEnv "HOME").map String.toList
      inputDir := (← IO.getEnv "ADVENT_INPUT_DIR").map String.toList }
  let ending ← run system printLine environment Catalogue.year2020 (words.map String.toList)
  pure (UInt32.ofNat ending.exitCode)
