import Mathlib.Data.List.Forall2
import PuzzleCalendar.Catalogue
import PuzzleCalendar.Proofs.Lines.Blocks

/-! # Line ends and outer spaces

A text may end its lines with or without carriage returns, and spaces and tabs may stand at both ends
of a line. Neither changes the trimmed lines, so records, blocks and grids are read alike, line numbers
of errors included. Every puzzle of the catalogue then accepts both texts or neither, with the same
data and the same answers. Two puzzles read a text without these shapes: the schedule takes its first
two lines, and the cups take the whole text trimmed.
-/

namespace PuzzleCalendar

namespace Text

/-- The text with a carriage return before each line feed. -/
def withReturns (text : Text) : Text :=
  text.flatMap fun char => if char = '\n' then ['\r', '\n'] else [char]

/-- Spaces and tabs. -/
def IsPadding (pad : Text) : Prop := ∀ char ∈ pad, char = ' ' ∨ char = '\t'

/-- A line with spaces and tabs at its ends. Where it ends with a carriage return they come after the
return or before it. -/
inductive Padded : Text → Text → Prop
  | around {before after : Text} (line : Text) (left : IsPadding before) (right : IsPadding after) :
      Padded line (before ++ line ++ after)
  | inside {before after : Text} (line : Text) (left : IsPadding before) (right : IsPadding after) :
      Padded (line ++ ['\r']) (before ++ line ++ after ++ ['\r'])

/-- A text with other line ends, or with spaces and tabs at the ends of its lines. -/
inductive Respaced (text : Text) : Text → Prop
  | returns : Respaced text (withReturns text)
  | padded {other : Text}
      (lines : List.Forall₂ Padded (splitAll '\n' text) (splitAll '\n' other)) : Respaced text other

theorem IsPadding.blank {pad : Text} (padding : IsPadding pad) : ∀ char ∈ pad, isBlank char = true := by
  intro char member
  obtain rfl | rfl := padding char member <;> decide

theorem Padded.trim_eq {line padded : Text} (pads : Padded line padded) :
    trim line = trim padded := by
  cases pads with
  | around line left right =>
    rw [trim_append_blanks right.blank, trim_blanks_append left.blank]
  | inside line left right =>
    rw [trim_append_return, trim_append_return, trim_append_blanks right.blank,
      trim_blanks_append left.blank]

/-- Every line but the last one gets its carriage return. -/
theorem splitAll_withReturns (text : Text) :
    List.Forall₂ (fun line ended => ended = line ∨ ended = line ++ ['\r'])
      (splitAll '\n' text) (splitAll '\n' (withReturns text)) := by
  induction text with
  | nil => exact .cons (.inl rfl) .nil
  | cons char text ih =>
    by_cases newline : char = '\n'
    · have ended : withReturns (char :: text) = '\r' :: '\n' :: withReturns text := by
        simp [withReturns, newline]
      have split : splitAll '\n' ('\r' :: '\n' :: withReturns text) =
          ['\r'] :: splitAll '\n' (withReturns text) := by
        simp [splitAll]
      rw [ended, split, newline, splitAll_cons_self]
      exact .cons (.inr rfl) ih
    · have kept : withReturns (char :: text) = char :: withReturns text := by
        simp [withReturns, newline]
      obtain ⟨piece, pieces, split, longer⟩ := splitAll_cons_of_ne newline text
      obtain ⟨piece', pieces', split', longer'⟩ := splitAll_cons_of_ne newline (withReturns text)
      rw [split, split'] at ih
      obtain ⟨first, rest⟩ := List.forall₂_cons.mp ih
      rw [kept, longer, longer']
      exact .cons (first.imp (congrArg (char :: ·)) (congrArg (char :: ·))) rest

/-- Lines that are trimmed to the same texts. -/
theorem trimmedLines_eq_of_forall₂ {text other : Text} {Alike : Text → Text → Prop}
    (trims : ∀ line changed, Alike line changed → trim line = trim changed)
    (lines : List.Forall₂ Alike (splitAll '\n' text) (splitAll '\n' other)) :
    trimmedLines text = trimmedLines other :=
  List.forall₂_eq_eq_eq ▸ List.forall₂_map_left_iff.mpr (List.forall₂_map_right_iff.mpr (lines.imp trims))

theorem Respaced.trimmedLines_eq {text other : Text} (respaced : Respaced text other) :
    trimmedLines text = trimmedLines other := by
  cases respaced with
  | returns =>
    refine trimmedLines_eq_of_forall₂ ?_ (splitAll_withReturns text)
    rintro line _ (rfl | rfl)
    · rfl
    · rw [trim_append_return]
  | padded lines => exact trimmedLines_eq_of_forall₂ (fun _ _ pads => pads.trim_eq) lines

end Text

namespace Input

open Text

variable {text other : Text}

theorem readLinesM_congr (same : trimmedLines text = trimmedLines other) {m : Type → Type} [Monad m]
    {α : Type} (read : Text → m (Except String α)) :
    readLinesM read text = readLinesM read other := by
  rw [readLinesM, readLinesM, recordLines_eq, recordLines_eq, same]

theorem readLines_congr (same : trimmedLines text = trimmedLines other) {α : Type}
    (read : Text → Except String α) : readLines read text = readLines read other := by
  rw [readLines, readLines, readLinesM_congr same]

theorem readFallibleLines_congr (same : trimmedLines text = trimmedLines other) {α : Type}
    (read : Text → Outcome String α) : readFallibleLines read text = readFallibleLines read other := by
  rw [readFallibleLines, readFallibleLines, readLinesM_congr same]

theorem blocks_congr (same : trimmedLines text = trimmedLines other) : blocks text = blocks other := by
  rw [blocks_eq, blocks_eq, same]

theorem grid_congr (same : trimmedLines text = trimmedLines other) : grid text = grid other := by
  rw [grid_eq, grid_eq, same]

theorem cellGrid_congr (same : trimmedLines text = trimmedLines other) {α : Type} (noun : String)
    (cell : UInt8 → Option α) : cellGrid noun cell text = cellGrid noun cell other := by
  rw [cellGrid, cellGrid, grid_congr same]

end Input

namespace Shuttle

open Text

/-- A blank line lists no bus. -/
theorem readBuses_nil (buses : List Bus) : readBuses 0 (splitAll ',' []) ≠ .ok buses := by
  intro read
  cases read

theorem parse_eq_ok_iff_lines {text : Text} {schedule : Schedule} : parse text = .ok schedule ↔
    ∃ first list rest, (lines text).map trim = first :: list :: rest ∧
      Number.readUnsigned 64 first = .ok schedule.earliest ∧
      readBuses 0 (splitAll ',' list) = .ok schedule.buses ∧ schedule.buses ≠ [] := by
  rw [parse, Outcome.ofExcept_eq_ok_iff]
  match (lines text).map trim with
  | [] => simp
  | [first] => simp [bind_eq_ok_iff]
  | first :: list :: rest =>
    simp only [bind_eq_ok_iff, mapError_eq_ok_iff]
    constructor
    · rintro ⟨earliest, number, buses, read, filled⟩
      split at filled
      · contradiction
      · rename_i some_bus
        obtain rfl := Except.ok.inj filled
        exact ⟨first, list, rest, rfl, number, read, by simpa using some_bus⟩
    · rintro ⟨_, _, _, ⟨⟩, number, read, filled⟩
      exact ⟨_, number, _, read, by simp [filled, pure, Except.pure]⟩

/-- The list of buses is not blank, so it is a line whether or not a line feed ends it. -/
theorem parse_eq_ok_iff {text : Text} {schedule : Schedule} : parse text = .ok schedule ↔
    ∃ first list rest, trimmedLines text = first :: list :: rest ∧
      Number.readUnsigned 64 first = .ok schedule.earliest ∧
      readBuses 0 (splitAll ',' list) = .ok schedule.buses ∧ schedule.buses ≠ [] := by
  rw [parse_eq_ok_iff_lines]
  obtain same | same := trimmedLines_eq text
  · rw [same]
  · rw [same]
    match (lines text).map trim with
    | [] => simp
    | [first] => simp [readBuses_nil]
    | first :: list :: rest => simp

theorem parse_congr {text other : Text} (same : trimmedLines text = trimmedLines other)
    (schedule : Schedule) : parse other = .ok schedule ↔ parse text = .ok schedule := by
  rw [parse_eq_ok_iff, parse_eq_ok_iff, same]

end Shuttle

namespace Cups

open Text

theorem notMem_of_readLabels {text : Text} {labels : List Nat}
    (read : text.mapM readLabel = .ok labels) : '\n' ∉ text := by
  induction text generalizing labels with
  | nil => simp
  | cons char text ih =>
    rw [List.mapM_cons] at read
    obtain ⟨label, first, read⟩ := bind_eq_ok_iff.mp read
    obtain ⟨others, later, -⟩ := bind_eq_ok_iff.mp read
    rintro (_ | ⟨_, member⟩)
    · cases first
    · exact ih later member

/-- The cups stand on the only line that is not blank. -/
theorem core_of_parse {text : Text} {labels : List Nat} (parsed : parse text = .ok labels) :
    core (trimmedLines text) = [trim text] := by
  rw [parse, Outcome.ofExcept_eq_ok_iff] at parsed
  obtain ⟨found, read, parsed⟩ := bind_eq_ok_iff.mp parsed
  have filled : trim text ≠ [] := by
    intro none
    rw [none] at read
    obtain rfl : [] = found := Except.ok.inj read
    contradiction
  have split : splitAll '\n' (trim text) = [] ++ [trim text] :=
    splitAll_of_notMem (notMem_of_readLabels read)
  rw [← Input.map_trim_lines_trim, map_trim_lines split]
  simpa using filled

theorem parse_of_parse {text other : Text} (same : trimmedLines text = trimmedLines other)
    {labels : List Nat} (parsed : parse text = .ok labels) : parse other = .ok labels := by
  have trimmed := Input.trim_eq_of_core (same ▸ core_of_parse parsed)
  rw [← parsed, parse, parse, trimmed]

theorem parse_congr {text other : Text} (same : trimmedLines text = trimmedLines other)
    (labels : List Nat) : parse other = .ok labels ↔ parse text = .ok labels :=
  ⟨parse_of_parse same.symm, parse_of_parse same⟩

end Cups

namespace Catalogue

open Text

variable {plugin : Plugin} {text other : Text}

/-- Two texts with the same trimmed lines are both accepted, with the same data, or both refused. -/
theorem parse_eq_ok_congr (listed : plugin ∈ all) (same : trimmedLines text = trimmedLines other)
    (shared : plugin.puzzle.Shared) :
    plugin.puzzle.parse other = .ok shared ↔ plugin.puzzle.parse text = .ok shared := by
  have alike {Shared : Type} (parse : Text → Outcome ParseError Shared)
      (equal : parse text = parse other) :
      ∀ shared, parse other = .ok shared ↔ parse text = .ok shared :=
    fun shared => by rw [equal]
  have records {α : Type} (read : Text → Except String α) := Input.readLines_congr same read
  have fallible {α : Type} (read : Text → Outcome String α) := Input.readFallibleLines_congr same read
  have sections := Input.blocks_congr same
  have cells {α : Type} (noun : String) (cell : UInt8 → Option α) := Input.cellGrid_congr same noun cell
  suffices each : all.Forall fun plugin => ∀ shared,
      plugin.puzzle.parse other = .ok shared ↔ plugin.puzzle.parse text = .ok shared from
    List.forall_iff_forall_mem.mp each plugin listed shared
  exact ⟨
    -- Expenses to Questionnaire
    alike Expenses.parse (by simp only [Expenses.parse, records]),
    alike PasswordPolicy.parse (by simp only [PasswordPolicy.parse, records]),
    alike Forest.parse (by simp only [Forest.parse, cells]),
    alike Passports.parse (by simp only [Passports.parse, sections]),
    alike BoardingPass.parse (by simp only [BoardingPass.parse, records]),
    alike Questionnaire.parse (by simp only [Questionnaire.parse, sections]),
    -- Baggage to Navigation
    alike Baggage.parse (by simp only [Baggage.parse, records]),
    alike Console.parse (by simp only [Console.parse, records]),
    alike Cipher.parse (by simp only [Cipher.parse, records]),
    alike Adapters.parse (by simp only [Adapters.parse, Adapters.readAdapters, records]),
    alike Seating.parse (by simp only [Seating.parse, cells]),
    alike Navigation.parse (by simp only [Navigation.parse, fallible]),
    -- Shuttle to Arithmetic
    Shuttle.parse_congr same,
    alike Docking.parse (by simp only [Docking.parse, records]),
    alike MemoryGame.parse (by simp only [MemoryGame.parse, records]),
    alike Tickets.parse (by simp only [Tickets.parse, sections]),
    alike Cubes.parse (by simp only [Cubes.parse, cells]),
    alike Arithmetic.parse (by simp only [Arithmetic.parse, fallible]),
    -- MessageGrammar to HexFloor
    alike MessageGrammar.parse (by simp only [MessageGrammar.parse, sections]),
    alike Jigsaw.parse (by simp only [Jigsaw.parse, sections]),
    alike Allergens.parse (by simp only [Allergens.parse, records]),
    alike Combat.parse (by simp only [Combat.parse, sections]),
    Cups.parse_congr same,
    alike HexFloor.parse (by simp only [HexFloor.parse, records]),
    alike Depths.parse (by simp only [Depths.parse, records]),
    alike Calories.parse (by simp only [Calories.parse, sections])⟩

/-- Line ends and outer spaces do not matter. The records, blocks and grid of a text stay the same, errors
and line numbers included. Every puzzle accepts the changed text when it accepts the text, with the same
data and the same answers. -/
theorem respaced_reads_alike (respaced : Respaced text other) :
    (∀ {m : Type → Type} [Monad m] {α : Type} (read : Text → m (Except String α)),
      Input.readLinesM read other = Input.readLinesM read text) ∧
    Input.blocks other = Input.blocks text ∧ Input.grid other = Input.grid text ∧
    ∀ plugin ∈ all,
      (∀ shared, plugin.puzzle.parse other = .ok shared ↔ plugin.puzzle.parse text = .ok shared) ∧
      ∀ year day parts,
        ((Session.start plugin.puzzle year day other).map (·.solveAll parts)).toOption =
          ((Session.start plugin.puzzle year day text).map (·.solveAll parts)).toOption := by
  have same := respaced.trimmedLines_eq
  refine ⟨fun read => (Input.readLinesM_congr same read).symm, (Input.blocks_congr same).symm,
    (Input.grid_congr same).symm, fun plugin listed => ?_⟩
  have accepts := parse_eq_ok_congr listed same
  refine ⟨accepts, fun year day parts => ?_⟩
  unfold Session.start
  cases read : plugin.puzzle.parse text with
  | ok shared => rw [(accepts shared).mpr read]
  | error failure =>
    cases again : plugin.puzzle.parse other with
    | ok shared => exact absurd ((accepts shared).mp again) (by simp [read])
    | error failure => rfl

theorem respaced_schedule : Respaced "939\r\n7,x\n".toList "\t939 \r\n 7,x\t\n ".toList ∧
    Shuttle.parse "\t939 \r\n 7,x\t\n ".toList = .ok ⟨939, [⟨7, 0⟩]⟩ := by
  have left {char : Char} (blank : char = ' ' ∨ char = '\t') : IsPadding [char] := by
    simpa [IsPadding] using blank
  have none : IsPadding [] := by simp [IsPadding]
  have lines : splitAll '\n' "939\r\n7,x\n".toList = ["939".toList ++ ['\r'], "7,x".toList, []] := by
    decide +kernel
  have padded : splitAll '\n' "\t939 \r\n 7,x\t\n ".toList =
      [['\t'] ++ "939".toList ++ [' '] ++ ['\r'], [' '] ++ "7,x".toList ++ ['\t'], [] ++ [] ++ [' ']] := by
    decide +kernel
  have respaced : Respaced "939\r\n7,x\n".toList "\t939 \r\n 7,x\t\n ".toList := by
    refine .padded ?_
    rw [lines, padded]
    exact .cons (.inside _ (left (.inr rfl)) (left (.inl rfl)))
      (.cons (.around _ (left (.inl rfl)) (left (.inr rfl))) (.cons (.around _ none (left (.inl rfl))) .nil))
  refine ⟨respaced, ?_⟩
  have listed : ⟨⟨2020, 13⟩, Shuttle.puzzle, ["math"]⟩ ∈ all := by simp [all, year2020]
  have parsed : Shuttle.parse "939\r\n7,x\n".toList = .ok ⟨939, [⟨7, 0⟩]⟩ := by decide +kernel
  exact (((respaced_reads_alike respaced).2.2.2 _ listed).1 _).mpr parsed

end Catalogue

end PuzzleCalendar
