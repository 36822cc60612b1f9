import PuzzleCalendar.CommandLine.Configuration
import PuzzleCalendar.CommandLine.Duration
import PuzzleCalendar.CommandLine.InputStore

/-! # Execution

The selected days run one after the other, in the order of the calendar. A day whose input cannot be
read, or whose input the puzzle refuses, fails in all its selected parts, and the next day runs. A
fault ends the whole execution.
-/

namespace PuzzleCalendar.CommandLine

/-- A day and the selected parts of its puzzle. -/
structure WorkItem where
  date : Date
  first : Nat
  last : Nat
deriving DecidableEq, Repr

/-- The selected parts in order. -/
def WorkItem.parts (item : WorkItem) : List Nat := List.range' item.first (item.last + 1 - item.first)

/-- Why a part has no answer. -/
inductive PartError where
  | input (message : String)
  | setup (message : String)
  | solve (error : SolveError)
deriving DecidableEq, Repr

/-- The sentence that reports why a part has no answer. -/
def PartError.message : PartError → String
  | input message => message
  | setup message => message
  | solve error => error.message

/-- What came of one part. Only the first part of a day knows how long the input took to parse. -/
structure PartResult where
  date : Date
  part : Nat
  answer : Except PartError String
  parseTime : Option Duration
  solveTime : Duration

/-- The selected parts of a puzzle with as many parts as `parts`. -/
def selectParts (part : Option Nat) (date : Date) (parts : Nat) : WorkItem :=
  match part with
  | none => ⟨date, 1, parts⟩
  | some part => if part ≤ parts then ⟨date, part, part⟩ else ⟨date, 1, 0⟩

/-- The work that a configuration selects from a registry. -/
def workItems (registry : Registry) (configuration : Configuration) : List WorkItem :=
  (registry.entries.filter fun entry =>
      configuration.year.all (entry.date.year = ·) && configuration.day.all (entry.date.day = ·))
    |>.map (fun entry => selectParts configuration.part entry.date entry.parts)
    |>.filter fun item => item.first ≤ item.last

/-- What a run reads from outside: files and the time. -/
structure Surroundings (m : Type → Type) where
  fileAt : Path → m (Except FileError Text)
  now : m Duration

section

variable {m : Type → Type} [Monad m]

/-- The result of a part that a day without a session has. -/
def failedPart (date : Date) (error : PartError) (part : Nat) : PartResult where
  date := date
  part := part
  answer := .error error
  parseTime := none
  solveTime := 0

/-- Solves parts one after the other on the same session. -/
def solveParts (now : m Duration) (session : Session) (date : Date) (parseTime : Option Duration) :
    List Nat → m (Option (List PartResult))
  | [] => pure (some [])
  | part :: parts => do
    let start ← now
    match session.solve part with
    | (.error .fault, _) => pure none
    | (.error (.reported error), next) =>
      let rest? ← solveParts now next date none parts
      pure (rest?.map (⟨date, part, .error (.solve error), parseTime, 0⟩ :: ·))
    | (.ok answer, next) => do
      let finish ← now
      let rest? ← solveParts now next date none parts
      pure (rest?.map (⟨date, part, .ok answer, parseTime, finish - start⟩ :: ·))

/-- Runs the selected parts of a day. -/
def runItem (surroundings : Surroundings m) (registry : Registry) (store : InputStore)
    (item : WorkItem) : m (Option (List PartResult)) := do
  match ← store.read surroundings.fileAt item.date with
  | .error error => pure (some (item.parts.map (failedPart item.date (.input error.message))))
  | .ok input =>
    let start ← surroundings.now
    match registry.create item.date input with
    | .error .fault => pure none
    | .error (.reported error) =>
      pure (some (item.parts.map (failedPart item.date (.setup error.message))))
    | .ok session => do
      let finish ← surroundings.now
      solveParts surroundings.now session item.date (some (finish - start)) item.parts

/-- Runs all work and hands over the results of each day as soon as the day is done. -/
def execute (surroundings : Surroundings m) (registry : Registry) (store : InputStore)
    (onResult : PartResult → m Unit) : List WorkItem → m (Option (List PartResult))
  | [] => pure (some [])
  | item :: items => do
    match ← runItem surroundings registry store item with
    | none => pure none
    | some results => do
      results.forM onResult
      let rest? ← execute surroundings registry store onResult items
      pure (rest?.map (results ++ ·))

end

/-- How many parts were solved and failed, and how long they took. -/
structure Summary where
  solved : Nat
  failed : Nat
  parseTime : Duration
  solveTime : Duration
deriving DecidableEq, Repr

/-- The part has an answer. -/
def PartResult.isSolved (result : PartResult) : Bool := result.answer.toOption.isSome

/-- The summary of results. Only parts with an answer count for the time of solving. -/
def Summary.ofResults? (results : List PartResult) : Option Summary := do
  pure {
    solved := results.countP PartResult.isSolved
    failed := results.countP (!·.isSolved)
    parseTime := ← Duration.sum? (results.filterMap PartResult.parseTime)
    solveTime := ← Duration.sum? ((results.filter PartResult.isSolved).map PartResult.solveTime) }

end PuzzleCalendar.CommandLine
