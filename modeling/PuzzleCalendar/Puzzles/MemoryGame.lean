import PuzzleCalendar.Input
import PuzzleCalendar.Number.Literal
import PuzzleCalendar.Number.Width
import PuzzleCalendar.Puzzle
import Std.Data.HashMap

/-! # Memory game

Players speak the starting numbers one after the other. After that each number is how many turns ago
the last one was spoken before, or zero when it was new.
-/

namespace PuzzleCalendar.MemoryGame

/-- The turn at which each number below a bound was last spoken, zero for a number not spoken yet. Only the
turns that are not zero are kept. -/
structure LastSeen where
  bound : Nat
  turns : Std.HashMap Nat Nat

namespace LastSeen

/-- Nothing has been spoken. -/
def blank (bound : Nat) : LastSeen := ⟨bound, ∅⟩

/-- Puts the turn at which a number is spoken in the place of the earlier one, which comes with it. -/
def replace? (seen : LastSeen) (number turn : Nat) : Option (Nat × LastSeen) :=
  if number < seen.bound then
    some (seen.turns.getD number 0, ⟨seen.bound, seen.turns.insert number turn⟩)
  else none

/-- The turns of some numbers spoken one after the other, the first of them at `turn`. -/
def opening? (seen : LastSeen) (turn : Nat) : List Nat → Option LastSeen
  | [] => some seen
  | number :: rest => do
    let (_, seen) ← seen.replace? number turn
    seen.opening? (turn + 1) rest

/-- The number spoken `count` turns after `last`, which is spoken at `turn`. The turns before that one are
known. -/
def speak? : Nat → LastSeen → Nat → Nat → Option Nat
  | 0, _, _, last => some last
  | count + 1, seen, turn, last => do
    let (earlier, seen) ← seen.replace? last turn
    let next ← if earlier = 0 then some 0 else Number.difference? turn earlier
    speak? count seen (turn + 1) next

end LastSeen

/-- A bound on all numbers that are spoken up to a turn: the distance of two turns is less than the later
one. -/
def numberBound (start : List Nat) (turn : Nat) : Nat :=
  max turn ((start.max?.map (· + 1)).getD 0)

/-- The number spoken at a turn, counted from one. Nobody speaks before the first turn, and without
starting numbers every number is zero. -/
def spoken? (start : List Nat) (turn : Nat) : Option Nat :=
  match start.getLast? with
  | none => some 0
  | some last =>
    if turn ≤ start.length then
      match turn with
      | 0 => none
      | index + 1 => start[index]?
    else do
      let seen ← (LastSeen.blank (numberBound start turn)).opening? 1 start.dropLast
      LastSeen.speak? (turn - start.length) seen start.length last

/-- Reads the starting numbers of one game. -/
def readStart (line : Text) : Except Number.LiteralError (List Nat) :=
  (Text.splitAll ',' line).mapM fun number => Number.readUnsigned 32 (Text.trim number)

/-- The games of all lines. -/
def parse (text : Text) : Outcome ParseError (List (List Nat)) :=
  Outcome.ofExcept do
    let games ← Input.readLines
      (fun line => (readStart line).mapError Number.LiteralError.message) text
    if games.isEmpty then .error (.missingData "no starting numbers") else pure games

/-- The number that each game speaks at a turn. -/
def play (turn : Nat) (games : List (List Nat)) : Outcome SolveError String := do
  let numbers ← Outcome.orFault (games.mapM fun start => spoken? start turn)
  pure (",".intercalate (numbers.map toString))

/-- The memory game. -/
def puzzle : Puzzle := Puzzle.ofParts parse (play 2020) (play 30000000)

end PuzzleCalendar.MemoryGame
