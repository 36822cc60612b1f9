import PuzzleCalendar.Tally
import Std.Data.HashSet

/-! # Sparse cellular automata

Only the living cells of an unbounded board are kept. One generation counts, for every cell that is a
neighbour of a living one, how many living neighbours it has, and a rule says which of those cells
live on. A cell without living neighbours never lives. A neighbour may lie outside the board, and then
there is no next generation.
-/

namespace PuzzleCalendar

/-- The neighbours of a cell, where all of them lie on the board, and the rule, which knows whether a
cell lives and how many living neighbours it has. -/
structure Automaton (Cell : Type) where
  neighbours? : Cell → Option (List Cell)
  lives : Bool → Nat → Bool

namespace Automaton

variable {Cell : Type} [BEq Cell] [LawfulBEq Cell] [Hashable Cell]

/-- The neighbours of all living cells, each as often as a living cell has it. -/
def surroundings? (automaton : Automaton Cell) (alive : Std.HashSet Cell) : Option (List Cell) :=
  (alive.toList.mapM automaton.neighbours?).map List.flatten

/-- The cells that live, given the neighbours of the living ones. -/
def survivors (automaton : Automaton Cell) (alive : Std.HashSet Cell) (surroundings : List Cell) :
    List Cell :=
  (tally surroundings).toList.filterMap fun (cell, count) =>
    if automaton.lives (alive.contains cell) count then some cell else none

/-- The next generation. -/
def step? (automaton : Automaton Cell) (alive : Std.HashSet Cell) : Option (Std.HashSet Cell) := do
  pure (Std.HashSet.ofList (automaton.survivors alive (← automaton.surroundings? alive)))

/-- The living cells after some generations. -/
def run? (automaton : Automaton Cell) : Nat → Std.HashSet Cell → Option (Std.HashSet Cell)
  | 0, alive => some alive
  | generations + 1, alive => do automaton.run? generations (← automaton.step? alive)

end Automaton

end PuzzleCalendar
