import PuzzleCalendar.Proofs.Lines.Trimmed
import PuzzleCalendar.Proofs.Parsing.Reports

/-! # Numbers of refused lines

A reader checks lines one after the other and numbers the first one that it refuses. Records are numbered
from the top of the text, the rows of a grid and the lines of the first block from the first line that is
not blank, and the lines of each block anew. A number is too low by the lines that its count leaves out.
-/

namespace PuzzleCalendar

open Text

/-- Why a line is refused, if it is. -/
def refusal? {α : Type} : Except String α → Option String
  | .ok _ => none
  | .error detail => some detail

/-- Why a line is refused, if it is and the reader does not fault. -/
def Outcome.refusal? {α : Type} : Outcome String α → Option String
  | .error (.reported detail) => some detail
  | _ => none

/-- A check passes the lines above a place and refuses the line there. -/
def FirstRefused (check : Text → Option String) (lines : List Text) (place : Nat) (detail : String) :
    Prop :=
  ∃ above line below, lines = above ++ line :: below ∧ above.length = place ∧
    (∀ earlier ∈ above, check earlier = none) ∧ check line = some detail

section FirstRefused

variable {check : Text → Option String} {line : Text} {lines : List Text} {place : Nat} {detail : String}

theorem firstRefused_cons_zero (refused : check line = some detail) :
    FirstRefused check (line :: lines) 0 detail :=
  ⟨[], line, lines, rfl, rfl, List.forall_mem_nil _, refused⟩

theorem FirstRefused.append_left {above : List Text} (passed : ∀ earlier ∈ above, check earlier = none)
    (refused : FirstRefused check lines place detail) :
    FirstRefused check (above ++ lines) (above.length + place) detail := by
  obtain ⟨between, line, below, rfl, rfl, passes, refused⟩ := refused
  refine ⟨above ++ between, line, below, by simp, by simp, fun earlier listed => ?_, refused⟩
  exact (List.mem_append.mp listed).elim (passed earlier) (passes earlier)

theorem FirstRefused.cons (passed : check line = none)
    (refused : FirstRefused check lines place detail) :
    FirstRefused check (line :: lines) (place + 1) detail := by
  have later := refused.append_left (List.forall_mem_singleton.mpr passed)
  rwa [List.length_singleton, Nat.add_comm] at later

end FirstRefused

/-- How a reader checks the lines of a text and counts them. -/
structure LineCheck where
  /-- The line at a place is the one that the reader refuses. -/
  Refuses : List Text → Nat → String → Prop
  /-- The lines above a place that the count leaves out. -/
  omitted : List Text → Nat → List Text

namespace LineCheck

/-- The reader refuses no line by its number. -/
def none : LineCheck where
  Refuses _ _ _ := False
  omitted _ _ := []

/-- Every line up to the last one that is not blank is a record. -/
def records (check : Text → Option String) : LineCheck where
  Refuses lines := FirstRefused check (lines.rdropWhile List.isEmpty)
  omitted _ _ := []

/-- A row has the width of the first one. -/
def checkWidth (width : Nat) (row : Text) : Option String :=
  if (bytes row).length = width then .none
  else some s!"expected {width} columns, found {(bytes row).length}"

/-- All bytes of a row are cells. -/
def checkCells {α : Type} (noun : String) (cell : UInt8 → Option α) (row : Text) : Option String :=
  ((bytes row).find? fun byte => (cell byte).isNone).map fun byte =>
    s!"unexpected {noun} {quotedChar (ofByte byte)}"

/-- The lines without the blank ones at both ends are rows. Their widths are checked before any of
their cells. -/
def rows {α : Type} (noun : String) (cell : UInt8 → Option α) : LineCheck where
  Refuses lines place detail := ∃ first others offset, core lines = first :: others ∧
    place = (lines.takeWhile List.isEmpty).length + offset ∧
    (FirstRefused (checkWidth (bytes first).length) (first :: others) offset detail ∨
      (∀ row ∈ first :: others, checkWidth (bytes first).length row = .none) ∧
        FirstRefused (checkCells noun cell) (first :: others) offset detail)
  omitted lines _ := lines.takeWhile List.isEmpty

/-- The lines of the first block are checked. -/
def firstBlock (check : Text → Option String) : LineCheck where
  Refuses lines place detail := ∃ offset, place = (lines.takeWhile List.isEmpty).length + offset ∧
    FirstRefused check ((lines.dropWhile List.isEmpty).takeWhile (!·.isEmpty)) offset detail
  omitted lines _ := lines.takeWhile List.isEmpty

/-- A check passes blank lines. -/
def checkFilled (check : Text → Option String) (line : Text) : Option String :=
  if line.isEmpty then .none else check line

/-- All lines that are not blank are checked. The count starts after the last blank line above. -/
def eachBlock (check : Text → Option String) : LineCheck where
  Refuses lines := FirstRefused (checkFilled check) lines
  omitted lines place := (lines.take place).rdropWhile (!·.isEmpty)

/-- A number is the one that a reader gives the line that it refuses. -/
def Numbers (check : LineCheck) (lines : List Text) (number : Nat) (detail : String) : Prop :=
  ∃ place, check.Refuses lines place detail ∧
    number + (check.omitted lines place).length = place + 1

end LineCheck

namespace Input

variable {α : Type}

/-- A refused line at a place below a first number. -/
def RefusedFrom (check : Text → Option String) (lines : List Text) (first : Nat) :
    ParseError → Prop :=
  ParseError.LineMeets fun number detail => ∃ place, FirstRefused check lines place detail ∧
    number = first + place

theorem RefusedFrom.cons {check : Text → Option String} {line : Text} {lines : List Text} {first : Nat}
    {error : ParseError} (passed : check line = none) (refused : RefusedFrom check lines (first + 1) error) :
    RefusedFrom check (line :: lines) first error := by
  refine ParseError.LineMeets.imp ?_ refused
  rintro _ detail ⟨place, refused, rfl⟩
  exact ⟨place + 1, refused.cons passed, by omega⟩

theorem passes_of_collect {read : Text → Except String α} {number : Nat} {lines : List Text}
    {records : List α}
    (collected : collect (m := Id) (fun line => pure (read line)) number lines = .ok records) :
    ∀ line ∈ lines, (refusal? ∘ read) line = none := by
  intro line listed
  have outcome := List.mem_map_of_mem (f := read) listed
  rw [collect_eq_ok_iff.mp collected] at outcome
  obtain ⟨record, -, same⟩ := List.mem_map.mp outcome
  rw [Function.comp_apply, ← same]
  rfl

/-- Lines that are collected are numbered one after the other. -/
theorem errorsIn_collect (read : Text → Except String α) (number : Nat) (lines : List Text) :
    ErrorsIn (RefusedFrom (refusal? ∘ read) lines number)
      (collect (m := Id) (fun line => pure (read line)) number lines) := by
  induction lines generalizing number with
  | nil => exact errorsIn_ok []
  | cons line lines ih =>
    rw [collect_cons]
    cases first : read line with
    | error detail =>
      exact errorsIn_error ⟨0, firstRefused_cons_zero (by simp [refusal?, first]), rfl⟩
    | ok record =>
      exact ((ih (number + 1)).imp fun _ => RefusedFrom.cons (by simp [refusal?, first])).map _

theorem ofResult?_collect_cons (read : Text → Outcome String α) (number : Nat) (line : Text)
    (lines : List Text) :
    Outcome.ofResult? (collect (fun line => (read line).result?) number (line :: lines)) =
      match read line with
      | .error (.reported detail) => Outcome.report (.invalidLine number detail)
      | .error .fault => Outcome.fault
      | .ok record => Except.map (record :: ·)
          (Outcome.ofResult? (collect (fun line => (read line).result?) (number + 1) lines)) := by
  rcases first : read line with (detail | _) | record
  · simp [collect, first, Outcome.result?, Outcome.ofResult?, Outcome.ofExcept]
  · simp [collect, first, Outcome.result?, Outcome.ofResult?]
  · rw [collect, first, show Outcome.result? (.ok record : Outcome String α) = some (.ok record) from rfl,
      Option.bind_eq_bind, Option.bind_some]
    rcases collect (fun line => (read line).result?) (number + 1) lines with _ | _ | _ <;> rfl

theorem errorsIn_collectFallible (read : Text → Outcome String α) (number : Nat) (lines : List Text) :
    ErrorsIn (Failure.Meets (RefusedFrom (Outcome.refusal? ∘ read) lines number))
      (Outcome.ofResult? (collect (fun line => (read line).result?) number lines)) := by
  induction lines generalizing number with
  | nil => exact errorsIn_ok []
  | cons line lines ih =>
    rw [ofResult?_collect_cons]
    rcases first : read line with (detail | _) | record
    · exact errorsIn_report ⟨0, firstRefused_cons_zero (by simp [Outcome.refusal?, first]), rfl⟩
    · exact errorsIn_error trivial
    · exact ((ih (number + 1)).imp fun _ =>
        Failure.Meets.imp fun _ => RefusedFrom.cons (by simp [Outcome.refusal?, first])).map _

/-- Records are numbered from the top of the text. -/
theorem RefusedFrom.numbers {check : Text → Option String} {text : Text} {error : ParseError}
    (refused : RefusedFrom check (recordLines text) 1 error) :
    ParseError.LineMeets ((LineCheck.records check).Numbers (trimmedLines text)) error := by
  refine ParseError.LineMeets.imp ?_ refused
  rintro _ detail ⟨place, refused, rfl⟩
  rw [recordLines_eq] at refused
  exact ⟨place, refused, Nat.add_comm 1 place⟩

theorem errorsIn_readLines (read : Text → Except String α) (text : Text) :
    ErrorsIn (ParseError.LineMeets
        ((LineCheck.records (refusal? ∘ read)).Numbers (trimmedLines text)))
      (readLines read text) :=
  (errorsIn_collect read 1 (recordLines text)).imp fun _ => RefusedFrom.numbers

theorem errorsIn_readFallibleLines (read : Text → Outcome String α) (text : Text) :
    ErrorsIn (Failure.Meets (ParseError.LineMeets
        ((LineCheck.records (Outcome.refusal? ∘ read)).Numbers (trimmedLines text))))
      (readFallibleLines read text) :=
  (errorsIn_collectFallible read 1 (recordLines text)).imp fun _ =>
    Failure.Meets.imp fun _ => RefusedFrom.numbers

section Grid

variable {noun : String} {cell : UInt8 → Option α} {rows : List Text} {number width : Nat}

theorem firstRefused_of_raggedRow? {found length : Nat}
    (ragged : raggedRow? width number (rows.map bytes) = some (found, length)) :
    ∃ place, FirstRefused (LineCheck.checkWidth width) rows place
      s!"expected {width} columns, found {length}" ∧ found = number + place := by
  induction rows generalizing number with
  | nil => simp [raggedRow?] at ragged
  | cons row rows ih =>
    rw [List.map_cons, raggedRow?] at ragged
    split at ragged
    · rename_i same
      obtain ⟨place, refused, rfl⟩ := ih ragged
      exact ⟨place + 1, refused.cons (if_pos same), by omega⟩
    · rename_i different
      obtain ⟨rfl, rfl⟩ : number = found ∧ (bytes row).length = length := by simpa using ragged
      exact ⟨0, firstRefused_cons_zero (if_neg different), rfl⟩

theorem errorsIn_readRow (row : List UInt8) :
    ErrorsIn (fun error => ∃ byte, row.find? (fun byte => (cell byte).isNone) = some byte ∧
        error = .invalidLine number s!"unexpected {noun} {quotedChar (ofByte byte)}")
      (readRow noun cell number row) := by
  induction row with
  | nil => exact errorsIn_ok []
  | cons byte row ih =>
    rw [readRow]
    cases read : cell byte with
    | none => exact errorsIn_error ⟨byte, by simp [read], rfl⟩
    | some value => simpa [read] using ih.map (value :: ·)

theorem find?_of_readRow {row : List UInt8} {values : List α}
    (read : readRow noun cell number row = .ok values) :
    row.find? (fun byte => (cell byte).isNone) = none := by
  induction row generalizing values with
  | nil => rfl
  | cons byte row ih =>
    rw [readRow] at read
    cases first : cell byte with
    | none => simp [first] at read
    | some value =>
      rw [first] at read
      obtain ⟨others, later, -⟩ := map_eq_ok_iff.mp read
      simpa [first] using ih later

theorem errorsIn_readRows (noun : String) (cell : UInt8 → Option α) (number : Nat) (rows : List Text) :
    ErrorsIn (RefusedFrom (LineCheck.checkCells noun cell) rows number)
      (readRows noun cell number (rows.map bytes)) := by
  induction rows generalizing number with
  | nil => exact errorsIn_ok []
  | cons row rows ih =>
    refine ErrorsIn.bind ?_ fun values read => ErrorsIn.bind ?_ fun others _ => errorsIn_ok _
    · refine (errorsIn_readRow (bytes row)).imp ?_
      rintro error ⟨byte, found, rfl⟩
      exact ⟨0, firstRefused_cons_zero (by simp [LineCheck.checkCells, found]), rfl⟩
    · exact (ih (number + 1)).imp fun _ =>
        RefusedFrom.cons (by simp [LineCheck.checkCells, find?_of_readRow read])

/-- Rows are numbered from the first line that is not blank. -/
theorem errorsIn_cellGrid (noun : String) (cell : UInt8 → Option α) (text : Text) :
    ErrorsIn (ParseError.LineMeets ((LineCheck.rows noun cell).Numbers (trimmedLines text)))
      (cellGrid noun cell text) := by
  rw [cellGrid, grid_eq]
  cases filled : core (trimmedLines text) with
  | nil => exact errorsIn_error trivial
  | cons row rows =>
    simp only [List.map_cons]
    rw [← List.map_cons]
    cases ragged : raggedRow? (bytes row).length 1 ((row :: rows).map bytes) with
    | some place =>
      obtain ⟨number, length⟩ := place
      obtain ⟨offset, refused, rfl⟩ := firstRefused_of_raggedRow? ragged
      exact errorsIn_error ⟨_, ⟨row, rows, offset, filled, rfl, .inl refused⟩, by
        simp only [LineCheck.rows]
        omega⟩
    | none =>
      have even : ∀ row' ∈ row :: rows, LineCheck.checkWidth (bytes row).length row' = none :=
        fun row' listed =>
          if_pos (raggedRow?_eq_none_iff.mp ragged _ (List.mem_map_of_mem listed))
      refine (errorsIn_readRows noun cell 1 (row :: rows)).imp fun _ => ParseError.LineMeets.imp ?_
      rintro _ detail ⟨offset, refused, rfl⟩
      exact ⟨_, ⟨row, rows, offset, filled, rfl, .inr ⟨even, refused⟩⟩, by
        simp only [LineCheck.rows]
        omega⟩

end Grid

end Input

namespace LineCheck

variable {check : Text → Option String} {lines : List Text} {number : Nat} {detail : String}

theorem rdropWhile_append_of_filled {block : List Text} (filled : ∀ line ∈ block, line.isEmpty = false)
    (above : List Text) :
    (above ++ block).rdropWhile (!·.isEmpty) = above.rdropWhile (!·.isEmpty) := by
  have none : block.reverse.dropWhile (!·.isEmpty) = [] := by simpa using filled
  simp [List.rdropWhile, List.dropWhile_append, none]

theorem rdropWhile_append_of_blank {below : List Text} (blank : [] ∈ below) (above : List Text) :
    (above ++ below).rdropWhile (!·.isEmpty) = above ++ below.rdropWhile (!·.isEmpty) := by
  have some : below.reverse.dropWhile (!·.isEmpty) ≠ [] := by
    simp only [ne_eq, List.dropWhile_eq_nil_iff, List.mem_reverse, not_forall]
    exact ⟨[], blank, by simp⟩
  simp [List.rdropWhile, List.dropWhile_append, some]

theorem checkFilled_passes {blanks above : List Text} (blank : ∀ line ∈ blanks, line = [])
    (passes : ∀ line ∈ above, check line = Option.none) :
    ∀ line ∈ blanks ++ above, checkFilled check line = Option.none := by
  intro line listed
  obtain listed | listed := List.mem_append.mp listed
  · rw [blank line listed]
    rfl
  · rw [checkFilled, passes line listed, ite_self]

theorem eachBlock_numbers_iff : (eachBlock check).Numbers lines number detail ↔
    ∃ above line below, lines = above ++ line :: below ∧
      (∀ earlier ∈ above, checkFilled check earlier = Option.none) ∧
      checkFilled check line = some detail ∧
      number + (above.rdropWhile (!·.isEmpty)).length = above.length + 1 := by
  have taken {above below : List Text} {line : Text} :
      (eachBlock check).omitted (above ++ line :: below) above.length =
        above.rdropWhile (!·.isEmpty) := by
    simp [eachBlock]
  constructor
  · rintro ⟨_, ⟨above, line, below, rfl, rfl, passes, refused⟩, counted⟩
    exact ⟨above, line, below, rfl, passes, refused, taken ▸ counted⟩
  · rintro ⟨above, line, below, rfl, passes, refused, counted⟩
    exact ⟨above.length, ⟨above, line, below, rfl, rfl, passes, refused⟩, taken.symm ▸ counted⟩

/-- Blank lines, a block of lines and the rest of a text. -/
structure Cut (lines blanks block rest : List Text) : Prop where
  whole : lines = blanks ++ block ++ rest
  blank : ∀ line ∈ blanks, line = []
  filled : ∀ line ∈ block, line.isEmpty = false
  ended : ∀ line ∈ rest.head?, line = []

variable {blanks block rest : List Text}

theorem Cut.of_filled {line : Text} (filled : lines.dropWhile List.isEmpty = line :: rest) :
    Cut lines (lines.takeWhile List.isEmpty) ((line :: rest).takeWhile (!·.isEmpty))
      ((line :: rest).dropWhile (!·.isEmpty)) where
  whole := by
    rw [List.append_assoc, List.takeWhile_append_dropWhile, ← filled, List.takeWhile_append_dropWhile]
  blank line listed := List.isEmpty_iff.mp (List.mem_takeWhile_imp listed)
  filled line listed := by simpa using List.mem_takeWhile_imp listed
  ended next first := by
    have blank := List.head?_dropWhile_not (!·.isEmpty) (line :: rest)
    rw [Option.mem_def.mp first] at blank
    simpa using blank

theorem Cut.length_rest_lt {line : Text} (filled : lines.dropWhile List.isEmpty = line :: rest) :
    ((line :: rest).dropWhile (!·.isEmpty)).length < lines.length := by
  have solid := List.head?_dropWhile_not List.isEmpty lines
  rw [filled] at solid
  have shorter : (lines.dropWhile List.isEmpty).length ≤ lines.length :=
    (List.dropWhile_suffix _).length_le
  have rest_le : (rest.dropWhile (!·.isEmpty)).length ≤ rest.length := (List.dropWhile_suffix _).length_le
  rw [filled, List.length_cons] at shorter
  rw [List.dropWhile_cons_of_pos (by simpa using solid)]
  omega

/-- A line that is refused in the first block is counted from the top of the block. -/
theorem Cut.numbers_block (cut : Cut lines blanks block rest) {place : Nat}
    (refused : FirstRefused check block place detail) :
    (eachBlock check).Numbers lines (1 + place) detail := by
  obtain ⟨above, line, below, rfl, rfl, passes, refused⟩ := refused
  have filled : checkFilled check line = some detail := by
    rw [checkFilled, cut.filled line (by simp)]
    exact refused
  have last : blanks.rdropWhile (!·.isEmpty) = blanks :=
    List.rdropWhile_eq_self_iff.mpr fun some => by simp [cut.blank _ (List.getLast_mem some)]
  refine eachBlock_numbers_iff.mpr ⟨blanks ++ above, line, below ++ rest, ?_, ?_, filled, ?_⟩
  · simp [cut.whole]
  · exact checkFilled_passes cut.blank passes
  · rw [rdropWhile_append_of_filled fun line listed => cut.filled line (by simp [listed]), last,
      List.length_append]
    omega

/-- A line that is refused after the first block is counted as in the rest of the text. -/
theorem Cut.numbers_rest (cut : Cut lines blanks block rest)
    (passes : ∀ line ∈ block, check line = Option.none)
    (numbers : (eachBlock check).Numbers rest number detail) :
    (eachBlock check).Numbers lines number detail := by
  obtain ⟨above, line, below, rfl, between, refused, counted⟩ := eachBlock_numbers_iff.mp numbers
  have blank : [] ∈ above := by
    cases above with
    | nil =>
      rw [cut.ended line rfl] at refused
      contradiction
    | cons first above => exact cut.ended first rfl ▸ List.mem_cons_self
  refine eachBlock_numbers_iff.mpr ⟨blanks ++ block ++ above, line, below, ?_, ?_, refused, ?_⟩
  · simp [cut.whole]
  · intro earlier listed
    obtain listed | listed := List.mem_append.mp listed
    · exact checkFilled_passes cut.blank passes earlier listed
    · exact between earlier listed
  · rw [rdropWhile_append_of_blank blank]
    simp only [List.length_append]
    omega

end LineCheck

end PuzzleCalendar
