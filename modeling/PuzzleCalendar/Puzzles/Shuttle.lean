import PuzzleCalendar.Input
import PuzzleCalendar.Number.Literal
import PuzzleCalendar.Number.Width
import PuzzleCalendar.Puzzle

/-! # Shuttle schedules

A bus with the number `n` departs at the multiples of `n`. The first part looks for the bus with the
least wait, the second one for the first time at which every bus departs as many minutes later as its
place in the list says. That time is found bus by bus: steps by the product of the numbers so far keep
the buses so far in line.
-/

namespace PuzzleCalendar.Shuttle

open Text

/-- The number of a bus and its place in the list. -/
structure Bus where
  id : Nat
  offset : Nat
deriving DecidableEq, Repr

/-- The earliest departure and the buses in service. -/
structure Schedule where
  earliest : Nat
  buses : List Bus
deriving DecidableEq, Repr

/-- Why a schedule has no answer. -/
inductive ScheduleError where
  | noBuses
  | neverAligned
deriving DecidableEq, Repr

/-- The sentence that reports a schedule error. -/
def ScheduleError.message : ScheduleError → String
  | noBuses => "no buses"
  | neverAligned => "bus offsets can never line up"

/-- Reads the buses of a list, the first of them at the place `offset`. A cross stands for a bus out of
service. -/
def readBuses (offset : Nat) : List Text → Except ParseError (List Bus)
  | [] => .ok []
  | id :: rest =>
    if trim id = ['x'] then readBuses (offset + 1) rest
    else
      match Number.readUnsigned 64 (trim id) with
      | .ok (number + 1) => (readBuses (offset + 1) rest).map (⟨number + 1, offset⟩ :: ·)
      | _ => .error (.invalidLine 2 ("bad bus id " ++ quoted id))

/-- The schedule on the first two lines. -/
def parse (text : Text) : Outcome ParseError Schedule :=
  Outcome.ofExcept <|
    match (lines text).map trim with
    | [] => .error (.missingData "earliest departure")
    | first :: rest => do
      let earliest ← (Number.readUnsigned 64 first).mapError fun error =>
        ParseError.invalidLine 1 error.message
      match rest with
      | [] => .error (.missingData "bus list")
      | list :: _ =>
        let buses ← readBuses 0 (splitAll ',' list)
        if buses.isEmpty then .error (.missingData "no buses in service")
        else pure { earliest, buses }

/-- The minutes from `earliest` to the next departure of a bus. -/
def wait (earliest : Nat) (bus : Bus) : Nat :=
  (bus.id - earliest % bus.id) % bus.id

/-- The first of the buses with the least wait. -/
def leastWait (earliest : Nat) (best : Bus) : List Bus → Bus
  | [] => best
  | bus :: rest =>
    if wait earliest bus < wait earliest best then leastWait earliest bus rest
    else leastWait earliest best rest

/-- The first of as many times as `tries` says, `step` apart from `time` on, at which a bus departs
`offset` minutes later. -/
def seek (bus : Bus) (step : Nat) : Nat → Nat → Outcome ScheduleError Nat
  | 0, _ => Outcome.report .neverAligned
  | tries + 1, time => do
    let departure ← Outcome.orFault (Number.word64? (time + bus.offset))
    if departure % bus.id = 0 then pure time else seek bus step tries (time + step)

/-- Brings further buses in line with those that depart in line at `time` and every `step` later. -/
def align (time step : Nat) : List Bus → Outcome ScheduleError Nat
  | [] => .ok time
  | bus :: rest => do
    let time ← seek bus step bus.id time
    let step ← Outcome.orReport .neverAligned (Number.word64? (step * bus.id))
    align time step rest

/-- The first time at which every bus departs at its offset. -/
def alignedDeparture (buses : List Bus) : Outcome ScheduleError Nat :=
  align 0 1 buses

/-- The number of the bus with the least wait, times the wait. -/
def shortestWait (schedule : Schedule) : Outcome SolveError String :=
  match schedule.buses with
  | [] => Outcome.report (.noSolution ScheduleError.noBuses.message)
  | first :: rest => do
    let bus := leastWait schedule.earliest first rest
    let product ← Outcome.orFault (Number.word64? (bus.id * wait schedule.earliest bus))
    pure (toString product)

/-- The first aligned departure. -/
def firstAligned (schedule : Schedule) : Outcome SolveError String :=
  (alignedDeparture schedule.buses).mapReport (fun error => .noSolution error.message)
    |>.map toString

/-- The shuttle schedule. -/
def puzzle : Puzzle := Puzzle.ofParts parse shortestWait firstAligned

end PuzzleCalendar.Shuttle
