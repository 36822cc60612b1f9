import PuzzleCalendar.Error
import PuzzleCalendar.Outcome
import PuzzleCalendar.Text.Blank
import PuzzleCalendar.Text.Lines
import PuzzleCalendar.Text.Quoted

/-! # Shapes of puzzle input

Three shapes come up again and again: one record a line, blocks of lines between blank lines, and
rectangular grids of bytes. All of them trim every line.
-/

namespace PuzzleCalendar.Input

open Text

/-- The trimmed lines up to the last one that is not blank. -/
def recordLines (text : Text) : List Text :=
  (lines (trimEnd text)).map trim

/-- Reads lines in order with `read`, the first of them numbered `number`, and stops at the first one
that `read` refuses. -/
def collect {m : Type → Type} [Monad m] {α : Type} (read : Text → m (Except String α)) :
    Nat → List Text → m (Except ParseError (List α))
  | _, [] => pure (.ok [])
  | number, line :: rest => do
    match ← read line with
    | .error detail => pure (.error (.invalidLine number detail))
    | .ok record =>
      match ← collect read (number + 1) rest with
      | .error error => pure (.error error)
      | .ok records => pure (.ok (record :: records))

theorem collect_cons {α : Type} (read : Text → Except String α) (number : Nat) (line : Text)
    (lines : List Text) :
    collect (m := Id) (fun line => pure (read line)) number (line :: lines) =
      match read line with
      | .error detail => .error (.invalidLine number detail)
      | .ok record =>
        (collect (m := Id) (fun line => pure (read line)) (number + 1) lines).map (record :: ·) := by
  cases first : read line with
  | error detail =>
    simp only [collect, first, pure_bind]
    rfl
  | ok record =>
    simp only [collect, first, pure_bind]
    cases collect (m := Id) (fun line => pure (read line)) (number + 1) lines <;> rfl

/-- All lines are read when each of them is. -/
theorem collect_eq_ok_iff {α : Type} {read : Text → Except String α} {number : Nat} {lines : List Text}
    {records : List α} :
    collect (m := Id) (fun line => pure (read line)) number lines = .ok records ↔
      lines.map read = records.map .ok := by
  induction lines generalizing number records with
  | nil =>
    have nothing : (.ok [] : Except ParseError (List α)) = .ok records ↔
        ([] : List (Except String α)) = records.map .ok := by
      cases records <;> simp
    exact nothing
  | cons line lines ih =>
    rw [collect_cons]
    cases first : read line with
    | error detail => cases records <;> simp [first]
    | ok record =>
      refine map_eq_ok_iff.trans ?_
      cases records with
      | nil => simp
      | cons other records =>
        simp only [ih, List.map_cons, first, List.cons.injEq, Except.ok.injEq]
        constructor
        · rintro ⟨_, read, rfl, rfl⟩
          exact ⟨rfl, read⟩
        · rintro ⟨rfl, read⟩
          exact ⟨_, read, rfl, rfl⟩

/-- Every record was read from one of the lines. -/
theorem exists_line_of_mem_collect {α : Type} {read : Text → Except String α} {number : Nat}
    {lines : List Text} {records : List α}
    (collected : collect (m := Id) (fun line => pure (read line)) number lines = .ok records)
    {record : α} (member : record ∈ records) : ∃ line ∈ lines, read line = .ok record := by
  have outcome := List.mem_map_of_mem (f := Except.ok (ε := String)) member
  rw [← collect_eq_ok_iff.mp collected] at outcome
  exact List.mem_map.mp outcome

/-- Reads one record a line with an effectful reader. Lines are numbered from one. -/
def readLinesM {m : Type → Type} [Monad m] {α : Type} (read : Text → m (Except String α))
    (text : Text) : m (Except ParseError (List α)) :=
  collect read 1 (recordLines text)

/-- Reads one record a line. -/
def readLines {α : Type} (read : Text → Except String α) (text : Text) :
    Except ParseError (List α) :=
  Id.run (readLinesM (fun line => pure (read line)) text)

theorem readLines_eq_ok_iff {α : Type} {read : Text → Except String α} {text : Text} {records : List α} :
    readLines read text = .ok records ↔ (recordLines text).map read = records.map .ok :=
  collect_eq_ok_iff

/-- Reads one record a line with a reader that may fault. -/
def readFallibleLines {α : Type} (read : Text → Outcome String α) (text : Text) :
    Outcome ParseError (List α) :=
  Outcome.ofResult? (readLinesM (fun line => (read line).result?) text)

/-- The blocks that have ended and the lines after them. -/
structure Grouping where
  ended : List (List Text)
  current : List Text

namespace Grouping

/-- Goes on with a line. A blank one ends the current block, if that has lines. -/
def add (grouping : Grouping) (line : Text) : Grouping :=
  if line.isEmpty then
    if grouping.current.isEmpty then grouping else ⟨grouping.ended ++ [grouping.current], []⟩
  else ⟨grouping.ended, grouping.current ++ [line]⟩

/-- All blocks, with the current one if that has lines. -/
def close (grouping : Grouping) : List (List Text) :=
  if grouping.current.isEmpty then grouping.ended else grouping.ended ++ [grouping.current]

end Grouping

/-- The blocks of trimmed lines that blank lines separate. -/
def blocks (text : Text) : List (List Text) :=
  (((lines text).map trim).foldl Grouping.add ⟨[], []⟩).close

/-- The first row that is not `width` long, numbered from `number`. -/
def raggedRow? (width : Nat) : Nat → List (List UInt8) → Option (Nat × Nat)
  | _, [] => none
  | number, row :: rows =>
    if row.length = width then raggedRow? width (number + 1) rows else some (number, row.length)

/-- The bytes of the trimmed lines, all of one length. -/
def grid (text : Text) : Except ParseError (List (List UInt8)) :=
  match (lines (trim text)).map fun line => bytes (trim line) with
  | [] => .error (.missingData "empty grid")
  | row :: rows =>
    match raggedRow? row.length 1 (row :: rows) with
    | some (number, found) =>
      .error (.invalidLine number s!"expected {row.length} columns, found {found}")
    | none => .ok (row :: rows)

/-- Reads the bytes of one row with `cell`; the refused byte is shown as a character. -/
def readRow {α : Type} (noun : String) (cell : UInt8 → Option α) (number : Nat) :
    List UInt8 → Except ParseError (List α)
  | [] => .ok []
  | byte :: row =>
    match cell byte with
    | none => .error (.invalidLine number s!"unexpected {noun} {quotedChar (ofByte byte)}")
    | some value => (readRow noun cell number row).map (value :: ·)

/-- Reads rows in order, the first of them numbered `number`. -/
def readRows {α : Type} (noun : String) (cell : UInt8 → Option α) :
    Nat → List (List UInt8) → Except ParseError (List (List α))
  | _, [] => .ok []
  | number, row :: rows => do
    let values ← readRow noun cell number row
    let rest ← readRows noun cell (number + 1) rows
    pure (values :: rest)

/-- A grid of cells, each read with `cell`; `noun` names a cell in the error. -/
def cellGrid {α : Type} (noun : String) (cell : UInt8 → Option α) (text : Text) :
    Except ParseError (List (List α)) := do
  readRows noun cell 1 (← grid text)

theorem raggedRow?_eq_none_iff {width number : Nat} {rows : List (List UInt8)} :
    raggedRow? width number rows = none ↔ ∀ row ∈ rows, row.length = width := by
  induction rows generalizing number with
  | nil => simp [raggedRow?]
  | cons row rows ih =>
    rw [raggedRow?, List.forall_mem_cons]
    split
    · rename_i same
      rw [ih, and_iff_right same]
    · rename_i different
      simp [different]

theorem length_of_readRow {α : Type} {noun : String} {cell : UInt8 → Option α} {number : Nat}
    {row : List UInt8} {values : List α} (read : readRow noun cell number row = .ok values) :
    values.length = row.length := by
  induction row generalizing values with
  | nil =>
    obtain rfl : [] = values := Except.ok.inj read
    rfl
  | cons byte row ih =>
    rw [readRow] at read
    split at read
    · contradiction
    · obtain ⟨rest, later, rfl⟩ := map_eq_ok_iff.mp read
      rw [List.length_cons, List.length_cons, ih later]

theorem lengths_of_readRows {α : Type} {noun : String} {cell : UInt8 → Option α} {number : Nat}
    {rows : List (List UInt8)} {values : List (List α)}
    (read : readRows noun cell number rows = .ok values) :
    values.map List.length = rows.map List.length := by
  induction rows generalizing number values with
  | nil =>
    obtain rfl : [] = values := Except.ok.inj read
    rfl
  | cons row rows ih =>
    obtain ⟨first, now, read⟩ := bind_eq_ok_iff.mp read
    obtain ⟨rest, later, same⟩ := bind_eq_ok_iff.mp read
    obtain rfl : first :: rest = values := Except.ok.inj same
    rw [List.map_cons, List.map_cons, length_of_readRow now, ih later]

/-- All rows of a grid are as long as its first one. -/
theorem rectangular_of_cellGrid {α : Type} {noun : String} {cell : UInt8 → Option α} {text : Text}
    {rows : List (List α)} (read : cellGrid noun cell text = .ok rows) :
    ∀ row ∈ rows, row.length = (rows.head?.map List.length).getD 0 := by
  obtain ⟨drawn, ofText, read⟩ := bind_eq_ok_iff.mp read
  have lengths := lengths_of_readRows read
  unfold grid at ofText
  split at ofText
  · contradiction
  · rename_i first others _
    split at ofText
    · contradiction
    · rename_i even
      obtain rfl : first :: others = drawn := Except.ok.inj ofText
      have all := raggedRow?_eq_none_iff.mp even
      have head : (rows.head?.map List.length).getD 0 = first.length := by
        rw [← List.head?_map, lengths]
        rfl
      intro row listed
      have length := List.mem_map_of_mem (f := List.length) listed
      rw [lengths] at length
      obtain ⟨original, among, same⟩ := List.mem_map.mp length
      rw [head, ← same, all original among]

end PuzzleCalendar.Input
