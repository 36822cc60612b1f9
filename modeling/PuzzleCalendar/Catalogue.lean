import PuzzleCalendar.Puzzles.Adapters
import PuzzleCalendar.Puzzles.Allergens
import PuzzleCalendar.Puzzles.Arithmetic
import PuzzleCalendar.Puzzles.Baggage
import PuzzleCalendar.Puzzles.BoardingPass
import PuzzleCalendar.Puzzles.Calories
import PuzzleCalendar.Puzzles.Cipher
import PuzzleCalendar.Puzzles.Combat
import PuzzleCalendar.Puzzles.Console
import PuzzleCalendar.Puzzles.Cubes
import PuzzleCalendar.Puzzles.Cups
import PuzzleCalendar.Puzzles.Depths
import PuzzleCalendar.Puzzles.Docking
import PuzzleCalendar.Puzzles.Expenses
import PuzzleCalendar.Puzzles.Forest
import PuzzleCalendar.Puzzles.HexFloor
import PuzzleCalendar.Puzzles.Jigsaw
import PuzzleCalendar.Puzzles.MemoryGame
import PuzzleCalendar.Puzzles.MessageGrammar
import PuzzleCalendar.Puzzles.Navigation
import PuzzleCalendar.Puzzles.PasswordPolicy
import PuzzleCalendar.Puzzles.Passports
import PuzzleCalendar.Puzzles.Questionnaire
import PuzzleCalendar.Puzzles.Seating
import PuzzleCalendar.Puzzles.Shuttle
import PuzzleCalendar.Puzzles.Tickets
import PuzzleCalendar.Registry

/-! # Catalogue of puzzles

Every puzzle has a date and tags. A choice of puzzles, by year, day or tags, makes a registry.
-/

namespace PuzzleCalendar

/-- A puzzle with its date and its tags. -/
structure Plugin where
  date : Date
  puzzle : Puzzle
  tags : List String

/-- The entry of a puzzle of the catalogue. -/
def Plugin.entry (plugin : Plugin) : Entry := Entry.ofPuzzle plugin.date plugin.puzzle

/-- The puzzle carries all of some tags. -/
def Plugin.carries (plugin : Plugin) (tags : List String) : Bool :=
  tags.all plugin.tags.contains

/-- A choice of puzzles by year, by day and by the tags they carry. -/
structure Selection where
  years : Option (List Nat)
  days : Option (List Nat)
  tags : List String
deriving DecidableEq, Repr

/-- The selection takes a puzzle. -/
def Selection.accepts (selection : Selection) (plugin : Plugin) : Bool :=
  selection.years.all (·.contains plugin.date.year) &&
    selection.days.all (·.contains plugin.date.day) && plugin.carries selection.tags

/-- The registry with the puzzles of a list that a condition takes. -/
def Registry.registerPlugins (registry : Registry) (accepts : Plugin → Bool)
    (plugins : List Plugin) : Except RegistrationError Registry :=
  registry.registerAll ((plugins.filter accepts).map Plugin.entry)

namespace Catalogue

/-- The puzzles of 2020. -/
def year2020 : List Plugin :=
  [ ⟨⟨2020, 1⟩, Expenses.puzzle, ["search"]⟩,
    ⟨⟨2020, 2⟩, PasswordPolicy.puzzle, ["strings"]⟩,
    ⟨⟨2020, 3⟩, Forest.puzzle, ["grid"]⟩,
    ⟨⟨2020, 4⟩, Passports.puzzle, ["validation"]⟩,
    ⟨⟨2020, 5⟩, BoardingPass.puzzle, ["binary"]⟩,
    ⟨⟨2020, 6⟩, Questionnaire.puzzle, ["sets"]⟩,
    ⟨⟨2020, 7⟩, Baggage.puzzle, ["graph", "memo"]⟩,
    ⟨⟨2020, 8⟩, Console.puzzle, ["vm"]⟩,
    ⟨⟨2020, 9⟩, Cipher.puzzle, ["search"]⟩,
    ⟨⟨2020, 10⟩, Adapters.puzzle, ["memo"]⟩,
    ⟨⟨2020, 11⟩, Seating.puzzle, ["grid", "automaton"]⟩,
    ⟨⟨2020, 12⟩, Navigation.puzzle, ["navigation"]⟩,
    ⟨⟨2020, 13⟩, Shuttle.puzzle, ["math"]⟩,
    ⟨⟨2020, 14⟩, Docking.puzzle, ["bits"]⟩,
    ⟨⟨2020, 15⟩, MemoryGame.puzzle, ["simulation"]⟩,
    ⟨⟨2020, 16⟩, Tickets.puzzle, ["constraints"]⟩,
    ⟨⟨2020, 17⟩, Cubes.puzzle, ["automaton"]⟩,
    ⟨⟨2020, 18⟩, Arithmetic.puzzle, ["parser"]⟩,
    ⟨⟨2020, 19⟩, MessageGrammar.puzzle, ["grammar"]⟩,
    ⟨⟨2020, 20⟩, Jigsaw.puzzle, ["grid", "search"]⟩,
    ⟨⟨2020, 21⟩, Allergens.puzzle, ["sets"]⟩,
    ⟨⟨2020, 22⟩, Combat.puzzle, ["simulation", "recursion"]⟩,
    ⟨⟨2020, 23⟩, Cups.puzzle, ["simulation", "linked-list"]⟩,
    ⟨⟨2020, 24⟩, HexFloor.puzzle, ["grid", "automaton"]⟩ ]

/-- The puzzle of 2021. -/
def depths : Plugin := ⟨⟨2021, 1⟩, Depths.puzzle, ["easy"]⟩

/-- The puzzle of 2022. -/
def calories : Plugin := ⟨⟨2022, 1⟩, Calories.puzzle, ["easy", "sum"]⟩

/-- All puzzles in the order of the calendar. -/
def all : List Plugin := year2020 ++ [depths, calories]

end Catalogue

end PuzzleCalendar
