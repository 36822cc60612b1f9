import PuzzleCalendar.Automaton
import PuzzleCalendar.Input
import PuzzleCalendar.Number.Width
import PuzzleCalendar.Puzzle

/-! # Hexagonal floor

Each line walks from the reference tile to a tile and flips it. A tile is told by its steps to the
east and to the northwest, for a step to the northeast is one of each. Every day a black tile turns
white unless it has one or two black neighbours, and a white one with two black neighbours turns
black.
-/

namespace PuzzleCalendar.HexFloor

open Text

/-- The way to a neighbour of a tile. -/
inductive Direction where
  | east
  | southeast
  | southwest
  | west
  | northwest
  | northeast
deriving DecidableEq, Repr

namespace Direction

/-- All directions, clockwise. -/
def all : List Direction := [east, southeast, southwest, west, northwest, northeast]

/-- The name of a direction in a path. -/
def name : Direction → Text
  | east => ['e']
  | southeast => ['s', 'e']
  | southwest => ['s', 'w']
  | west => ['w']
  | northwest => ['n', 'w']
  | northeast => ['n', 'e']

end Direction

/-- Why a line is no path. -/
inductive PathError where
  | unfinished (char : Char)
  | unexpected (char : Char)
deriving DecidableEq, Repr

/-- The sentence that reports a path error. -/
def PathError.message : PathError → String
  | unfinished char => s!"`{char}` must be followed by e or w"
  | unexpected char => "unexpected direction " ++ quotedChar char

/-- Reads the directions of a path, whose names follow each other without a separator. -/
def readPath : Text → Except PathError (List Direction)
  | [] => .ok []
  | 'e' :: path => (readPath path).map (.east :: ·)
  | 'w' :: path => (readPath path).map (.west :: ·)
  | 'n' :: 'e' :: path => (readPath path).map (.northeast :: ·)
  | 'n' :: 'w' :: path => (readPath path).map (.northwest :: ·)
  | 's' :: 'e' :: path => (readPath path).map (.southeast :: ·)
  | 's' :: 'w' :: path => (readPath path).map (.southwest :: ·)
  | char :: _ =>
    if char = 'n' || char = 's' then .error (.unfinished char)
    else .error (.unexpected (leadByte char))

/-- The steps from the reference tile to the east and to the northwest. -/
structure Tile where
  east : Int
  northwest : Int
deriving DecidableEq, Repr, Hashable

/-- The tile where every path starts. -/
def Tile.reference : Tile := ⟨0, 0⟩

/-- The neighbour of the reference tile in a direction. -/
def Direction.offset : Direction → Tile
  | east => ⟨1, 0⟩
  | southeast => ⟨0, -1⟩
  | southwest => ⟨-1, -1⟩
  | west => ⟨-1, 0⟩
  | northwest => ⟨0, 1⟩
  | northeast => ⟨1, 1⟩

/-- The neighbour of a tile in a direction, where 32 bits hold its steps. -/
def Tile.neighbour? (tile : Tile) (direction : Direction) : Option Tile := do
  let offset := direction.offset
  pure ⟨← Number.int32? (tile.east + offset.east),
    ← Number.int32? (tile.northwest + offset.northwest)⟩

/-- The tile at the end of a path. -/
def walk? (path : List Direction) : Option Tile :=
  path.foldlM Tile.neighbour? Tile.reference

/-- The black tiles after a tile is flipped. -/
def flip (black : Std.HashSet Tile) (tile : Tile) : Std.HashSet Tile :=
  if black.contains tile then black.erase tile else black.insert tile

/-- The tiles at the ends of some paths, flipped one after the other. -/
def blackTiles? (paths : List (List Direction)) : Option (Std.HashSet Tile) := do
  pure ((← paths.mapM walk?).foldl flip ∅)

/-- The rule of the days. -/
def floor : Automaton Tile where
  neighbours? tile := Direction.all.mapM tile.neighbour?
  lives black count := count = 2 || (count = 1 && black)

/-- The paths of all lines. -/
def parse (text : Text) : Outcome ParseError (List (List Direction)) :=
  Outcome.ofExcept (Input.readLines (fun line => (readPath line).mapError PathError.message) text)

/-- The number of black tiles after some days. -/
def answer (days : Nat) (paths : List (List Direction)) : Outcome SolveError String := do
  let black ← Outcome.orFault (blackTiles? paths)
  pure (toString (← Outcome.orFault (floor.run? days black)).size)

/-- The hexagonal floor. -/
def puzzle : Puzzle := Puzzle.ofParts parse (answer 0) (answer 100)

end PuzzleCalendar.HexFloor
