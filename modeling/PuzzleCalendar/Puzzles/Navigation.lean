import PuzzleCalendar.Input
import PuzzleCalendar.Number.Literal
import PuzzleCalendar.Number.Width
import PuzzleCalendar.Puzzle

/-! # Navigation

A ship sails by actions. A vector steers it: moving forward adds the vector as many times as the action
says, and turns rotate the vector. A compass move shifts the ship in the first part, and the vector,
which is then a waypoint, in the second one.

Every coordinate is an integer of 64 bits; a coordinate outside stops the voyage.
-/

namespace PuzzleCalendar.Navigation

open Text

/-- A step to the east and to the north. -/
structure Displacement where
  east : Int
  north : Int
deriving DecidableEq, Repr

/-- One line of instructions. A turn counts quarter turns counter-clockwise. -/
inductive Action where
  | shift (step : Displacement)
  | turn (quarters : Nat)
  | forward (times : Int)
deriving DecidableEq, Repr

/-- Why a line is no action. -/
inductive ActionError where
  | empty
  | badValue (line : Text)
  | partTurn (degrees : Int)
  | unknown (code : Char)
deriving DecidableEq, Repr

/-- The sentence that reports an action error. -/
def ActionError.message : ActionError → String
  | empty => "empty navigation instruction"
  | badValue line => "bad value in " ++ quoted line
  | partTurn degrees => s!"turns must be multiples of 90 degrees, got {degrees}"
  | unknown code => "unknown action " ++ quoted [code]

/-- The negation of an integer, where 64 bits hold it. -/
def negated (value : Int) : Outcome ActionError Int :=
  Outcome.orFault (Number.int64? (-value))

/-- The quarter turns that make up an angle. -/
def readTurn (degrees : Int) : Outcome ActionError Action :=
  if degrees % 90 = 0 then .ok (.turn ((degrees / 90) % 4).toNat)
  else Outcome.report (.partTurn degrees)

/-- The action with a letter and a value. -/
def Action.ofCode (code : Char) (value : Int) : Outcome ActionError Action :=
  match code with
  | 'N' => .ok (.shift ⟨0, value⟩)
  | 'S' => do pure (.shift ⟨0, ← negated value⟩)
  | 'E' => .ok (.shift ⟨value, 0⟩)
  | 'W' => do pure (.shift ⟨← negated value, 0⟩)
  | 'L' => readTurn value
  | 'R' => do readTurn (← negated value)
  | 'F' => .ok (.forward value)
  | _ => Outcome.report (.unknown code)

/-- Reads one action. Its letter is a character of a single byte. -/
def Action.read (line : Text) : Outcome ActionError Action :=
  match line with
  | [] => Outcome.report .empty
  | code :: value =>
    if code.utf8Size = 1 then
      match Number.readSigned 64 value with
      | .ok value => Action.ofCode code value
      | .error _ => Outcome.report (.badValue line)
    else Outcome.report .empty

/-- A displacement whose coordinates 64 bits hold. -/
def displacement? (east north : Int) : Option Displacement := do
  pure ⟨← Number.int64? east, ← Number.int64? north⟩

/-- The sum of two displacements. -/
def Displacement.add? (first second : Displacement) : Option Displacement :=
  displacement? (first.east + second.east) (first.north + second.north)

/-- A displacement taken some times. -/
def Displacement.scale? (vector : Displacement) (times : Int) : Option Displacement :=
  displacement? (vector.east * times) (vector.north * times)

/-- A displacement after quarter turns counter-clockwise. -/
def Displacement.rotate? (vector : Displacement) : Nat → Option Displacement
  | 0 => some vector
  | quarters + 1 => do (← displacement? (-vector.north) vector.east).rotate? quarters

/-- Where a ship is and the vector that steers it. -/
structure Course where
  ship : Displacement
  vector : Displacement
deriving DecidableEq, Repr

/-- What compass moves shift. -/
inductive Compass where
  | ship
  | vector
deriving DecidableEq, Repr

/-- The course after one action. -/
def Course.follow? (compass : Compass) (course : Course) : Action → Option Course
  | .shift step =>
    match compass with
    | .ship => do pure { course with ship := ← course.ship.add? step }
    | .vector => do pure { course with vector := ← course.vector.add? step }
  | .turn quarters => do pure { course with vector := ← course.vector.rotate? quarters }
  | .forward times => do
    pure { course with ship := ← course.ship.add? (← course.vector.scale? times) }

/-- How far the ship is from its start, along the axes. -/
def Displacement.distance? (ship : Displacement) : Option Nat := do
  let east ← Number.int64? ship.east.natAbs
  let north ← Number.int64? ship.north.natAbs
  pure (← Number.int64? (east + north)).toNat

/-- How far a ship sails by some actions. -/
def sail? (compass : Compass) (vector : Displacement) (actions : List Action) : Option Nat := do
  let course ← actions.foldlM (Course.follow? compass) ⟨⟨0, 0⟩, vector⟩
  course.ship.distance?

/-- The actions of all lines. -/
def parse (text : Text) : Outcome ParseError (List Action) :=
  Input.readFallibleLines (fun line => (Action.read line).mapReport ActionError.message) text

/-- How far the ship sails. -/
def answer (compass : Compass) (vector : Displacement) (actions : List Action) :
    Outcome SolveError String := do
  pure (toString (← Outcome.orFault (sail? compass vector actions)))

/-- The navigation. -/
def puzzle : Puzzle :=
  Puzzle.ofParts parse (answer .ship ⟨1, 0⟩) (answer .vector ⟨10, 1⟩)

end PuzzleCalendar.Navigation
