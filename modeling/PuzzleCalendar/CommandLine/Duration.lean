import PuzzleCalendar.Number.Rounding
import PuzzleCalendar.Number.Width

/-! # Durations

A duration is a number of nanoseconds, at most as many milliseconds as an integer of 64 bits counts.
It is shown in microseconds, in milliseconds or in seconds, whichever keeps the number short.
-/

namespace PuzzleCalendar

/-- A length of time in nanoseconds. -/
abbrev Duration := Int

namespace Duration

/-- The longest duration. -/
def longest : Duration := 9223372036854775807000000

/-- A duration that is within bounds. -/
def held? (duration : Duration) : Option Duration :=
  if -longest ≤ duration ∧ duration ≤ longest then some duration else none

/-- The sum of durations, added from the left, when every sum on the way is within bounds. -/
def sum? (durations : List Duration) : Option Duration :=
  durations.foldlM (fun total duration => held? (total + duration)) 0

/-- The quotient of two numbers with two decimal places. Both the dividend and the quotient are
binary64 numbers. -/
def quotient (dividend divisor : Nat) : String :=
  let dividend := (Number.Fraction.mk dividend 1).toBinary64
  (Number.Fraction.mk dividend.num (dividend.den * divisor)).toBinary64.toTwoPlaces

/-- The text of as many microseconds. -/
def microsecondsText (micros : Nat) : String :=
  if micros < 1000 then s!"{micros}µs"
  else if micros < 1000000 then quotient micros 1000 ++ "ms"
  else quotient micros 1000000 ++ "s"

/-- The text of a duration. A part of a microsecond is dropped, and more microseconds than an integer
of 64 bits counts are not shown. -/
def text (duration : Duration) : String :=
  match Number.int64? (duration.tdiv 1000) with
  | none => "N/A"
  | some (.ofNat micros) => microsecondsText micros
  | some micros =>
    match Number.int64? (-micros) with
    | none => "-N/A"
    | some micros => "-" ++ microsecondsText micros.toNat

end Duration

end PuzzleCalendar
