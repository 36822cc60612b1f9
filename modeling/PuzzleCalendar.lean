import PuzzleCalendar.Main
import PuzzleCalendar.Memo.WeightedTable
import PuzzleCalendar.Proofs.SessionHistory
import PuzzleCalendar.Proofs.MessageGrammar.Derivation
import PuzzleCalendar.Proofs.MessageGrammar.Matching
import PuzzleCalendar.Proofs.Seating.Energy
import PuzzleCalendar.Proofs.Seating.Chart
import PuzzleCalendar.Proofs.Seating.Settling
import PuzzleCalendar.Proofs.Seating.Sight
import PuzzleCalendar.Proofs.Arithmetic.Expression
import PuzzleCalendar.Proofs.Arithmetic.Evaluation
import PuzzleCalendar.Proofs.Jigsaw.Turning
import PuzzleCalendar.Proofs.Jigsaw.Layout
import PuzzleCalendar.Proofs.Jigsaw.Cleanness
import PuzzleCalendar.Proofs.Jigsaw.Stitching
import PuzzleCalendar.Proofs.Jigsaw.Completeness
import PuzzleCalendar.Proofs.Console.Halting
import PuzzleCalendar.Proofs.Assignment
import PuzzleCalendar.Proofs.Tickets.Candidates
import PuzzleCalendar.Proofs.Tickets.FieldOrder
import PuzzleCalendar.Proofs.Allergens.Resolution
import PuzzleCalendar.Proofs.Shuttle.Remainders
import PuzzleCalendar.Proofs.Cups.Cycle
import PuzzleCalendar.Proofs.Combat.Conservation
import PuzzleCalendar.Proofs.Memo.Evaluation
import PuzzleCalendar.Proofs.Registry.FiniteMap
import PuzzleCalendar.Proofs.Registry.RegistrationOrder
import PuzzleCalendar.Proofs.CommandLine.Execution
import PuzzleCalendar.Proofs.Parsing.Bounds
import PuzzleCalendar.Proofs.Parsing.Totality
import PuzzleCalendar.Proofs.Lines.Trimmed
import PuzzleCalendar.Proofs.Lines.Blocks
import PuzzleCalendar.Proofs.Lines.Respacing
import PuzzleCalendar.Proofs.Lines.Numbering
import PuzzleCalendar.Proofs.Parsing.LineNumbers
import PuzzleCalendar.Proofs.MessageGrammar.Looping
import PuzzleCalendar.Proofs.CommandLine.Reporting
import PuzzleCalendar.Proofs.Docking.LastWrite
import PuzzleCalendar.Proofs.Docking.Masks
import PuzzleCalendar.Proofs.Jigsaw.Roughness
import PuzzleCalendar.Proofs.Adapters.Arrangements
import PuzzleCalendar.Proofs.Graph.Cycles
import PuzzleCalendar.Proofs.Baggage.Nesting
import PuzzleCalendar.Proofs.Jigsaw.Corners
import PuzzleCalendar.Proofs.Jigsaw.Monsters
import PuzzleCalendar.Proofs.Arithmetic.Grammar
import PuzzleCalendar.Proofs.Arithmetic.Tokens
import PuzzleCalendar.Proofs.Jigsaw.Coverage
import PuzzleCalendar.Proofs.Seating.Buffers
import PuzzleCalendar.Proofs.Seating.Neighbours
import PuzzleCalendar.Proofs.Cipher.Weakness
import PuzzleCalendar.Proofs.MemoryGame.Sequence
import PuzzleCalendar.Proofs.Console.Repair
import PuzzleCalendar.Proofs.Allergens.Harmless
import PuzzleCalendar.Proofs.Automaton.Generations
import PuzzleCalendar.Proofs.Cubes.Simulation
import PuzzleCalendar.Proofs.HexFloor.Flips
import PuzzleCalendar.Proofs.Expenses.Search
import PuzzleCalendar.Proofs.Graph.Sources
import PuzzleCalendar.Proofs.Baggage.Holders
import PuzzleCalendar.Proofs.Navigation.Degrees
import PuzzleCalendar.Proofs.Memo.Observations
import PuzzleCalendar.Proofs.Lines.Records
import PuzzleCalendar.Proofs.Forest.Slopes
import PuzzleCalendar.Proofs.HexFloor.Spelling
import PuzzleCalendar.Proofs.PasswordPolicy.Writing
import PuzzleCalendar.Proofs.Passports.Documented
import PuzzleCalendar.Proofs.BoardingPass.FreeSeat
import PuzzleCalendar.Proofs.Questionnaire.Sets
import PuzzleCalendar.Proofs.Baggage.Cycles
import PuzzleCalendar.Proofs.Jigsaw.Symmetries
