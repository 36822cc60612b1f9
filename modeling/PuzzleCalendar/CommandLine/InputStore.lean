import PuzzleCalendar.CommandLine.Path
import PuzzleCalendar.Number.Rounding
import PuzzleCalendar.Registry

/-! # Input stores

The input of a day is the first of its files that exists. A file that exists and cannot be read is an
error, and so is a day without a file.
-/

namespace PuzzleCalendar.CommandLine

/-- Why a file gives no text. -/
inductive FileError where
  | missing
  | unreadable (reason : String)
deriving DecidableEq, Repr

/-- Why a day has no input. -/
inductive InputError where
  | missing (date : Date) (tried : List Path)
  | unreadable (path : Path) (reason : String)
deriving DecidableEq, Repr

/-- A year and a day of at least two digits. -/
def showDate (date : Date) : String := s!"{date.year}/{Number.twoDigits date.day}"

/-- The sentence that reports an input error. -/
def InputError.message : InputError → String
  | missing date tried =>
    let paths := ", ".intercalate (tried.map String.ofList)
    s!"no input for {showDate date} (looked in {paths})"
  | unreadable path reason => s!"failed to read {String.ofList path}: {reason}"

/-- Where the inputs are: in a directory, or all in one file. -/
structure InputStore where
  directory : Path
  file : Option Path
deriving DecidableEq, Repr

namespace InputStore

/-- The files that may hold the input of a day, in the order in which they are tried. -/
def candidates (store : InputStore) (date : Date) : List Path :=
  match store.file with
  | some file => [file]
  | none =>
    let year := (toString date.year).toList
    let name := s!"day{Number.twoDigits date.day}.txt".toList
    [ (store.directory.join year).join name,
      store.directory.join (year ++ '_' :: name) ]

/-- Reads the first file that exists; `tried` holds the ones before. -/
def readFirst {m : Type → Type} [Monad m] (read : Path → m (Except FileError Text)) (date : Date)
    (tried : List Path) : List Path → m (Except InputError Text)
  | [] => pure (.error (.missing date tried))
  | path :: rest => do
    match ← read path with
    | .ok text => pure (.ok text)
    | .error .missing => readFirst read date (tried ++ [path]) rest
    | .error (.unreadable reason) => pure (.error (.unreadable path reason))

/-- Reads the input of a day. -/
def read {m : Type → Type} [Monad m] (store : InputStore)
    (read : Path → m (Except FileError Text)) (date : Date) : m (Except InputError Text) :=
  readFirst read date [] (store.candidates date)

end InputStore

end PuzzleCalendar.CommandLine
