import PuzzleCalendar.Catalogue
import PuzzleCalendar.Proofs.Lines.Blocks
import PuzzleCalendar.Proofs.Lines.Numbering

/-! # Line numbers in the reports of the catalogue

Every line number that a puzzle reports belongs to the line that the puzzle refuses, but it does not
always count from the top of the text. Grids and the rules of messages leave out the blank lines at the
top, and calories all lines down to the last blank one above.
-/

namespace PuzzleCalendar

open Text

namespace Calories

/-- The reader of a line. -/
def readCalories (line : Text) : Except String Nat :=
  (Number.readUnsigned 64 line).mapError Number.LiteralError.message

/-- Calories are numbered from the top of their block. -/
theorem errorsIn_readTotals (lines : List Text) :
    ErrorsIn (Failure.Meets (ParseError.LineMeets
        ((LineCheck.eachBlock (refusal? ∘ readCalories)).Numbers lines)))
      (readTotals (Input.group lines)) := by
  induction size : lines.length using Nat.strong_induction_on generalizing lines with
  | h size ih =>
  subst size
  rw [Input.group_eq]
  cases filled : lines.dropWhile List.isEmpty with
  | nil => exact errorsIn_ok []
  | cons line rest =>
    have cut := LineCheck.Cut.of_filled filled
    refine ErrorsIn.bind (ErrorsIn.ofExcept ?_) fun calories read =>
      (errorsIn_orFault _).bind fun total _ => ErrorsIn.bind ?_ fun totals _ => errorsIn_ok _
    · refine (Input.errorsIn_collect readCalories 1 _).imp fun _ => ParseError.LineMeets.imp ?_
      rintro _ detail ⟨place, refused, rfl⟩
      exact cut.numbers_block refused
    · have passes := Input.passes_of_collect (Outcome.ofExcept_eq_ok_iff.mp read)
      exact (ih _ (LineCheck.Cut.length_rest_lt filled) _ rfl).imp fun _ =>
        Failure.Meets.imp fun _ => ParseError.LineMeets.imp fun _ _ => cut.numbers_rest passes

theorem errorsIn_parse (text : Text) :
    ErrorsIn (Failure.Meets (ParseError.LineMeets
        ((LineCheck.eachBlock (refusal? ∘ readCalories)).Numbers (trimmedLines text))))
      (parse text) := by
  rw [parse, Input.blocks_eq]
  exact (errorsIn_readTotals (trimmedLines text)).bind fun totals _ => errorsIn_ok _

end Calories

namespace MessageGrammar

/-- The reader of a rule, with the sentence that reports its error. -/
def readRuleLine (line : Text) : Except String (Nat × Rule) :=
  (readRule line).mapError RuleError.message

/-- Rules are numbered from the first line that is not blank. -/
theorem errorsIn_parse (text : Text) :
    ErrorsIn (Failure.Meets (ParseError.LineMeets
        ((LineCheck.firstBlock (refusal? ∘ readRuleLine)).Numbers (trimmedLines text))))
      (parse text) := by
  rw [parse, Input.blocks_eq, Input.group_eq]
  refine ErrorsIn.ofExcept ?_
  cases filled : (trimmedLines text).dropWhile List.isEmpty with
  | nil => exact errorsIn_error trivial
  | cons line rest =>
    refine ErrorsIn.bind ?_ fun rules _ => ?_
    · refine (Input.errorsIn_collect readRuleLine 1 _).imp fun _ => ParseError.LineMeets.imp ?_
      rintro _ detail ⟨place, refused, rfl⟩
      rw [← filled] at refused
      exact ⟨_, ⟨place, rfl, refused⟩, by simp only [LineCheck.firstBlock]; omega⟩
    · dsimp only
      split
      · exact errorsIn_error trivial
      · exact errorsIn_ok _

end MessageGrammar

namespace Docking

/-- The reader of a command, with the sentence that reports its error. -/
def readCommand (line : Text) : Except String Command :=
  (Command.read line).mapError CommandError.message

/-- Each line is a command. When all of them are, the first one is no write. -/
def lineCheck : LineCheck where
  Refuses lines place detail := (LineCheck.records (refusal? ∘ readCommand)).Refuses lines place detail ∨
    place = 0 ∧ detail = "memory write before the first mask" ∧
      (∀ line ∈ lines.rdropWhile List.isEmpty, (refusal? ∘ readCommand) line = none) ∧
      ∃ line rest address value, lines = line :: rest ∧ Command.read line = .ok (.write address value)
  omitted _ _ := []

theorem exists_first_of_readLines {text : Text} {command : Command} {program : List Command}
    (read : Input.readLines readCommand text = .ok (command :: program)) :
    ∃ line rest, trimmedLines text = line :: rest ∧ Command.read line = .ok command := by
  obtain ⟨line, rest, lines, first, -⟩ := List.map_eq_cons_iff.mp (Input.readLines_eq_ok_iff.mp read)
  obtain ⟨more, whole⟩ := List.rdropWhile_prefix List.isEmpty (trimmedLines text)
  rw [← Input.recordLines_eq, lines] at whole
  exact ⟨line, rest ++ more, whole.symm, mapError_eq_ok_iff.mp first⟩

theorem errorsIn_parse (text : Text) :
    ErrorsIn (Failure.Meets (ParseError.LineMeets (lineCheck.Numbers (trimmedLines text))))
      (parse text) := by
  refine ErrorsIn.ofExcept (ErrorsIn.bind ?_ fun program read => ?_)
  · refine (Input.errorsIn_readLines readCommand text).imp fun _ => ParseError.LineMeets.imp ?_
    rintro number detail ⟨place, refused, counted⟩
    exact ⟨place, .inl refused, counted⟩
  · have passes := Input.passes_of_collect read
    rw [Input.recordLines_eq] at passes
    split
    · rename_i address value _
      obtain ⟨line, rest, lines, command⟩ := exists_first_of_readLines read
      exact errorsIn_error
        ⟨0, .inr ⟨rfl, rfl, passes, line, rest, address, value, lines, command⟩, rfl⟩
    · exact errorsIn_ok _

end Docking

namespace Shuttle

/-- The reader of the earliest departure, with the sentence that reports its error. -/
def readEarliest (line : Text) : Except String Nat :=
  (Number.readUnsigned 64 line).mapError Number.LiteralError.message

/-- The entry is a cross or the number of a bus. -/
def isEntry (id : Text) : Bool :=
  trim id = ['x'] ||
    match Number.readUnsigned 64 (trim id) with
    | .ok (_ + 1) => true
    | _ => false

/-- Every entry of a list is a cross or the number of a bus. -/
def checkBuses (list : Text) : Option String :=
  ((splitAll ',' list).find? (!isEntry ·)).map fun id => "bad bus id " ++ quoted id

/-- The first line is the earliest departure and the second one a list of buses. -/
def lineCheck : LineCheck where
  Refuses lines place detail := ∃ first rest, lines = first :: rest ∧
    (place = 0 ∧ refusal? (readEarliest first) = some detail ∨
      place = 1 ∧ refusal? (readEarliest first) = none ∧
        ∃ list more, rest = list :: more ∧ checkBuses list = some detail)
  omitted _ _ := []

theorem errorsIn_readBuses (offset : Nat) (ids : List Text) :
    ErrorsIn (fun error => ∃ id, ids.find? (!isEntry ·) = some id ∧
      error = .invalidLine 2 ("bad bus id " ++ quoted id)) (readBuses offset ids) := by
  induction ids generalizing offset with
  | nil => exact errorsIn_ok []
  | cons id rest ih =>
    have later (entry : isEntry id = true) :
        (id :: rest).find? (!isEntry ·) = rest.find? (!isEntry ·) :=
      List.find?_cons_of_neg (by simp [entry])
    rw [readBuses]
    split
    · rename_i cross
      rw [later (by simp [isEntry, cross])]
      exact ih (offset + 1)
    · rename_i cross
      split
      · rename_i number read
        rw [later (by simp [isEntry, read])]
        exact (ih (offset + 1)).map _
      · have refused : isEntry id = false := by
          simp only [isEntry, cross, decide_false, Bool.false_or]
        exact errorsIn_error ⟨id, List.find?_cons_of_pos (by simp [refused]), rfl⟩

theorem errorsIn_parse (text : Text) :
    ErrorsIn (Failure.Meets (ParseError.LineMeets (lineCheck.Numbers (trimmedLines text))))
      (parse text) := by
  obtain ⟨last, whole⟩ : ∃ last, trimmedLines text = (lines text).map trim ++ last :=
    (trimmedLines_eq text).elim (fun same => ⟨[], by simp [same]⟩) fun same => ⟨[[]], same⟩
  rw [parse]
  refine ErrorsIn.ofExcept ?_
  split
  · exact errorsIn_error trivial
  · rename_i first rest split
    rw [split] at whole
    refine ErrorsIn.bind ?_ fun earliest read => ?_
    · cases read : Number.readUnsigned 64 first with
      | ok earliest => exact errorsIn_ok earliest
      | error error =>
        refine errorsIn_error ⟨0, ⟨first, _, whole, .inl ⟨rfl, ?_⟩⟩, rfl⟩
        simp [readEarliest, read, refusal?, Except.mapError]
    · have passed : refusal? (readEarliest first) = none := by
        rw [readEarliest, mapError_eq_ok_iff.mpr (mapError_eq_ok_iff.mp read)]
        rfl
      split
      · exact errorsIn_error trivial
      · rename_i list more
        refine ErrorsIn.bind ?_ fun buses _ => ?_
        · refine (errorsIn_readBuses 0 (splitAll ',' list)).imp ?_
          rintro _ ⟨id, found, rfl⟩
          refine ⟨1, ⟨first, _, whole, .inr ⟨rfl, passed, list, _, rfl, ?_⟩⟩, rfl⟩
          rw [checkBuses, found]
          rfl
        · split
          · exact errorsIn_error trivial
          · exact errorsIn_ok _

end Shuttle

/-- How a puzzle of the catalogue checks and counts the lines of its input. -/
def Plugin.lineCheck (plugin : Plugin) : LineCheck :=
  let number (bits : Nat) (line : Text) :=
    refusal? ((Number.readUnsigned bits line).mapError Number.LiteralError.message)
  match plugin.date with
  | ⟨2020, 1⟩ => .records (number 32)
  | ⟨2020, 2⟩ => .records fun line =>
      refusal? ((PasswordPolicy.Entry.read line).mapError PasswordPolicy.EntryError.message)
  | ⟨2020, 3⟩ => .rows "map cell" Forest.cell?
  | ⟨2020, 5⟩ => .records fun line =>
      refusal? ((BoardingPass.seatNumber line).mapError BoardingPass.PassError.message)
  | ⟨2020, 7⟩ => .records fun line =>
      refusal? ((Baggage.readRule line).mapError Baggage.RuleError.message)
  | ⟨2020, 8⟩ => .records fun line =>
      refusal? ((Console.Instruction.read line).mapError Console.InstructionError.message)
  | ⟨2020, 9⟩ => .records (number 64)
  | ⟨2020, 10⟩ => .records (number 64)
  | ⟨2020, 11⟩ => .rows "seat" Seating.cell?
  | ⟨2020, 12⟩ => .records fun line =>
      Outcome.refusal? ((Navigation.Action.read line).mapReport Navigation.ActionError.message)
  | ⟨2020, 13⟩ => Shuttle.lineCheck
  | ⟨2020, 14⟩ => Docking.lineCheck
  | ⟨2020, 15⟩ => .records fun line =>
      refusal? ((MemoryGame.readStart line).mapError Number.LiteralError.message)
  | ⟨2020, 17⟩ => .rows "cube" Cubes.cell?
  | ⟨2020, 18⟩ => .records fun line =>
      Outcome.refusal? ((Arithmetic.tokenize line).mapReport Arithmetic.ExpressionError.message)
  | ⟨2020, 19⟩ => .firstBlock (refusal? ∘ MessageGrammar.readRuleLine)
  | ⟨2020, 21⟩ => .records fun line =>
      refusal? ((Allergens.Food.read line).mapError Allergens.FoodError.message)
  | ⟨2020, 24⟩ => .records fun line =>
      refusal? ((HexFloor.readPath line).mapError HexFloor.PathError.message)
  | ⟨2021, 1⟩ => .records (number 32)
  | ⟨2022, 1⟩ => .eachBlock (refusal? ∘ Calories.readCalories)
  | _ => .none

/-- Lines that the count of a puzzle omits: blank ones at the top of a grid or of the rules of messages,
and for calories those down to a blank line above. -/
def Plugin.Miscounts (plugin : Plugin) (lines : List Text) (place : Nat) : Prop :=
  plugin.date ∈ [⟨2020, 3⟩, ⟨2020, 11⟩, ⟨2020, 17⟩, ⟨2020, 19⟩] ∧ lines.head? = some [] ∨
    plugin.date = ⟨2022, 1⟩ ∧ [] ∈ lines.take place

theorem Plugin.omitted_eq_nil_iff (plugin : Plugin) (lines : List Text) (place : Nat) :
    plugin.lineCheck.omitted lines place = [] ↔ ¬ plugin.Miscounts lines place := by
  have top : lines.takeWhile List.isEmpty = [] ↔ lines.head? ≠ some [] := by
    cases lines with
    | nil => simp
    | cons line lines => cases line <;> simp
  have above : (lines.take place).rdropWhile (!·.isEmpty) = [] ↔ [] ∉ lines.take place := by
    rw [List.rdropWhile_eq_nil_iff]
    constructor
    · intro filled blank
      simpa using filled [] blank
    · intro filled line listed
      cases line with
      | nil => exact absurd listed filled
      | cons char line => rfl
  unfold Plugin.lineCheck Plugin.Miscounts
  split
  -- the grids and the rules of messages, the calories, and the puzzles that report no line
  case h_3 date | h_9 date | h_14 date | h_16 date =>
    simp [date, LineCheck.rows, LineCheck.firstBlock, top]
  case h_20 date => simp [date, LineCheck.eachBlock, above]
  case h_21 => simp_all [LineCheck.none]
  all_goals
    rename_i date
    simp [date, LineCheck.records, Shuttle.lineCheck, Docking.lineCheck]

namespace Catalogue

variable {plugin : Plugin} {text : Text} {number : Nat} {detail : String}

theorem errorsIn_parse (listed : plugin ∈ all) (text : Text) :
    ErrorsIn (Failure.Meets (ParseError.LineMeets (plugin.lineCheck.Numbers (trimmedLines text))))
      (plugin.puzzle.parse text) := by
  have records {α β : Type} {read : Text → Except String α} {next : List α → Except ParseError β}
      (others : ∀ {located records}, ErrorsIn (ParseError.LineMeets located) (next records)) :
      ErrorsIn (Failure.Meets (ParseError.LineMeets
          ((LineCheck.records (refusal? ∘ read)).Numbers (trimmedLines text))))
        (Outcome.ofExcept (Input.readLines read text >>= next)) :=
    ((Input.errorsIn_readLines read text).bind fun _ _ => others).ofExcept
  have filled {located : Nat → String → Prop} {α : Type} {wanted : Prop} [Decidable wanted] {value : α}
      {detail : String} : ErrorsIn (ParseError.LineMeets located)
        (if wanted then .error (.missingData detail) else pure value) := by
    split
    · exact errorsIn_error trivial
    · exact errorsIn_ok value
  suffices each : all.Forall fun plugin =>
      ErrorsIn (Failure.Meets (ParseError.LineMeets (plugin.lineCheck.Numbers (trimmedLines text))))
        (plugin.puzzle.parse text) from
    List.forall_iff_forall_mem.mp each plugin listed
  exact ⟨
    -- Expenses to Questionnaire
    records (errorsIn_ok _), (Input.errorsIn_readLines _ text).ofExcept,
    (Input.errorsIn_cellGrid _ _ text).ofExcept, Passports.errorsIn_parse text,
    records (errorsIn_ok _), Questionnaire.errorsIn_parse text,
    -- Baggage to Navigation
    records (errorsIn_ok _), records (errorsIn_ok _), records filled,
    (Input.errorsIn_readLines _ text).ofExcept.bind fun adapters _ => Adapters.errorsIn_chainOf adapters,
    (Input.errorsIn_cellGrid _ _ text).ofExcept.bind fun rows _ => errorsIn_orFault _,
    Input.errorsIn_readFallibleLines _ text,
    -- Shuttle to Arithmetic
    Shuttle.errorsIn_parse text, Docking.errorsIn_parse text, records filled, Tickets.errorsIn_parse text,
    ((Input.errorsIn_cellGrid _ _ text).map _).ofExcept, Input.errorsIn_readFallibleLines _ text,
    -- MessageGrammar to HexFloor
    MessageGrammar.errorsIn_parse text, Jigsaw.errorsIn_parse text, records filled,
    Combat.errorsIn_parse text, Cups.errorsIn_parse text, (Input.errorsIn_readLines _ text).ofExcept,
    -- Depths and Calories
    (Input.errorsIn_readLines _ text).ofExcept, Calories.errorsIn_parse text⟩

/-- The number in a report belongs to the line that the puzzle refuses. It is the number of that line in
the text unless the puzzle omits lines above, and then it is too low by these. -/
theorem reported_number (listed : plugin ∈ all)
    (reported : plugin.puzzle.parse text = Outcome.report (.invalidLine number detail)) :
    ∃ place, plugin.lineCheck.Refuses (trimmedLines text) place detail ∧
      number + (plugin.lineCheck.omitted (trimmedLines text) place).length = place + 1 ∧
      (number = place + 1 ↔ ¬ plugin.Miscounts (trimmedLines text) place) := by
  obtain ⟨place, refused, counted⟩ := errorsIn_parse listed text _ reported
  refine ⟨place, refused, counted, ?_⟩
  rw [← plugin.omitted_eq_nil_iff, ← List.length_eq_zero_iff]
  omega

theorem parse_secondElf :
    Calories.parse "1\n\nx".toList = Outcome.report (.invalidLine 1 "invalid digit found in string") := by
  decide +kernel

theorem reported_number_secondElf : calories ∈ all ∧
    calories.puzzle.parse "1\n\nx".toList =
      Outcome.report (.invalidLine 1 "invalid digit found in string") ∧
    ∃ place, calories.lineCheck.Refuses (trimmedLines "1\n\nx".toList) place
        "invalid digit found in string" ∧
      1 + (calories.lineCheck.omitted (trimmedLines "1\n\nx".toList) place).length = place + 1 ∧
      (1 = place + 1 ↔ ¬ calories.Miscounts (trimmedLines "1\n\nx".toList) place) := by
  have listed : calories ∈ all := by simp [all]
  exact ⟨listed, parse_secondElf, reported_number listed parse_secondElf⟩

/-- The number in a report is not always the number of the refused line in the text. -/
theorem not_numbered_from_top : ¬ ∀ plugin ∈ all, ∀ text number detail,
    plugin.puzzle.parse text = Outcome.report (.invalidLine number detail) →
      ∃ place, plugin.lineCheck.Refuses (trimmedLines text) place detail ∧ number = place + 1 := by
  intro numbered
  obtain ⟨place, refused, counted⟩ := numbered calories (by simp [all]) _ _ _ parse_secondElf
  obtain rfl : place = 0 := by omega
  obtain ⟨above, line, below, lines, none, -, refused⟩ := refused
  have first : trimmedLines "1\n\nx".toList = ["1".toList, [], "x".toList] := by decide +kernel
  rw [first, List.length_eq_zero_iff.mp none] at lines
  obtain ⟨rfl, -⟩ := List.cons_eq_cons.mp lines
  have passed : LineCheck.checkFilled (refusal? ∘ Calories.readCalories) "1".toList = .none := by
    decide +kernel
  rw [passed] at refused
  contradiction

end Catalogue

end PuzzleCalendar
