import PuzzleCalendar.Proofs.Lines.Trimmed

/-! # Rectangles of bytes

A grid has rows, its rows have columns, and all rows are equally wide. That there is a column comes from
trimming the whole text before its lines: the first character left is not blank, so that neither is the
first line. Only a text of blanks leaves no row, and any other text that is no grid is refused at the first
row whose width is not that of the first one.
-/

namespace PuzzleCalendar

namespace Text

variable {text : Text}

theorem exists_first_of_trimmedLines (filled : trim text ≠ []) :
    ∃ line lines, trimmedLines (trim text) = line :: lines ∧ line ≠ [] := by
  obtain ⟨char, rest, starts, solid⟩ := exists_first_of_trim filled
  obtain ⟨piece, pieces, -, split⟩ := splitAll_cons_of_ne (ne_newline solid) rest
  rw [starts, trimmedLines, split, List.map_cons, trim_cons solid]
  exact ⟨_, _, rfl, List.cons_ne_nil _ _⟩

theorem bytes_ne_nil (filled : text ≠ []) : bytes text ≠ [] := by
  cases text with
  | nil => contradiction
  | cons char text =>
    have positive := char.utf8Size_pos
    have lead : String.utf8EncodeChar char ≠ [] := by
      rw [← List.length_pos_iff, String.length_utf8EncodeChar]
      exact positive
    rw [bytes_cons]
    exact List.append_ne_nil_of_left_ne_nil lead _

end Text

namespace Input

open Text

variable {α : Type} {text : Text}

/-- Rows of one width, with at least one row and one column. -/
structure Rectangle (rows : List (List α)) (width : Nat) : Prop where
  tall : rows ≠ []
  wide : 0 < width
  even : ∀ row ∈ rows, row.length = width

/-- A row is the first one that has not the width of all rows above it. -/
structure FirstRagged (rows above : List (List α)) (row : List α) (width : Nat) : Prop where
  whole : ∃ below, rows = above ++ row :: below
  some : above ≠ []
  even : ∀ earlier ∈ above, earlier.length = width
  ragged : row.length ≠ width

/-- The rows that a text draws: the trimmed lines of the trimmed text, as bytes. -/
def drawnRows (text : Text) : List (List UInt8) := (trimmedLines (trim text)).map bytes

theorem raggedRow?_eq_some_iff {width number found length : Nat} {rows : List (List UInt8)} :
    raggedRow? width number rows = some (found, length) ↔
      ∃ above row below, rows = above ++ row :: below ∧ (∀ earlier ∈ above, earlier.length = width) ∧
        row.length ≠ width ∧ number + above.length = found ∧ row.length = length := by
  induction rows generalizing number with
  | nil => simp [raggedRow?]
  | cons first rows ih =>
    rw [raggedRow?]
    split
    · rename_i same
      rw [ih]
      constructor
      · rintro ⟨above, row, below, rfl, even, ragged, rfl, rfl⟩
        refine ⟨first :: above, row, below, rfl, List.forall_mem_cons.mpr ⟨same, even⟩, ragged, ?_, rfl⟩
        rw [List.length_cons]
        omega
      · rintro ⟨above, row, below, whole, even, ragged, rfl, rfl⟩
        cases above with
        | nil =>
          obtain ⟨rfl, -⟩ := List.cons_eq_cons.mp whole
          exact absurd same ragged
        | cons earlier above =>
          obtain ⟨rfl, rfl⟩ := List.cons_eq_cons.mp whole
          refine ⟨above, row, below, rfl, (List.forall_mem_cons.mp even).2, ragged, ?_, rfl⟩
          rw [List.length_cons]
          omega
    · rename_i different
      rw [Option.some.injEq, Prod.mk.injEq]
      constructor
      · rintro ⟨rfl, rfl⟩
        exact ⟨[], first, rows, rfl, List.forall_mem_nil _, different, rfl, rfl⟩
      · rintro ⟨above, row, below, whole, even, ragged, rfl, rfl⟩
        cases above with
        | nil =>
          obtain ⟨rfl, -⟩ := List.cons_eq_cons.mp whole
          exact ⟨rfl, rfl⟩
        | cons earlier above =>
          obtain ⟨rfl, -⟩ := List.cons_eq_cons.mp whole
          exact absurd (even first List.mem_cons_self) different

section Rows

variable {above others : List (List α)} {first row : List α} {width : Nat}

theorem FirstRagged.length_first (ragged : FirstRagged (first :: others) above row width) :
    first.length = width := by
  obtain ⟨below, whole⟩ := ragged.whole
  cases above with
  | nil => exact absurd rfl ragged.some
  | cons earlier above =>
    obtain ⟨rfl, -⟩ := List.cons_eq_cons.mp whole
    exact ragged.even first List.mem_cons_self

end Rows

theorem drawnRows_of_blank (blank : trim text = []) : drawnRows text = [[]] := by
  rw [drawnRows, blank]
  rfl

/-- A text that is not blank draws a first row with a column. -/
theorem grid_of_filled (filled : trim text ≠ []) : ∃ first others, drawnRows text = first :: others ∧
    first ≠ [] ∧ grid text =
      match raggedRow? first.length 1 (first :: others) with
      | some (number, found) =>
        .error (.invalidLine number s!"expected {first.length} columns, found {found}")
      | none => .ok (first :: others) := by
  obtain ⟨line, lines, split, some⟩ := exists_first_of_trimmedLines filled
  have drawn : drawnRows text = bytes line :: lines.map bytes := by
    rw [drawnRows, split, List.map_cons]
  have rows : (Text.lines (trim text)).map (fun line => bytes (trim line)) = drawnRows text := by
    rw [drawnRows, ← map_trim_lines_of_trim filled, List.map_map]
    rfl
  refine ⟨_, _, drawn, bytes_ne_nil some, ?_⟩
  rewrite [grid, rows, drawn]
  rfl

/-- A text is blank, draws a rectangle or draws a ragged row. -/
theorem drawnRows_cases (text : Text) : trim text = [] ∨ (∃ width, Rectangle (drawnRows text) width) ∨
    ∃ above row width, FirstRagged (drawnRows text) above row width := by
  refine or_iff_not_imp_left.mpr fun filled => ?_
  obtain ⟨first, others, drawn, some, -⟩ := grid_of_filled filled
  rw [drawn]
  cases checked : raggedRow? first.length 1 (first :: others) with
  | none =>
    exact .inl ⟨first.length, List.cons_ne_nil _ _, List.length_pos_iff.mpr some,
      raggedRow?_eq_none_iff.mp checked⟩
  | some place =>
    obtain ⟨above, row, below, whole, even, ragged, -, -⟩ := raggedRow?_eq_some_iff.mp checked
    refine .inr ⟨above, row, first.length, ⟨below, whole⟩, ?_, even, ragged⟩
    rintro rfl
    obtain ⟨rfl, -⟩ := List.cons_eq_cons.mp whole
    exact ragged rfl

theorem grid_of_blank (blank : trim text = []) : grid text = .error (.missingData "empty grid") := by
  rw [grid, blank]
  rfl

theorem not_blank_of_rectangle {width : Nat} (rectangle : Rectangle (drawnRows text) width) :
    trim text ≠ [] := by
  intro blank
  rw [drawnRows_of_blank blank] at rectangle
  have none := rectangle.even [] List.mem_cons_self
  exact absurd rectangle.wide (none ▸ Nat.not_lt_zero 0)

theorem grid_of_rectangle {width : Nat} (rectangle : Rectangle (drawnRows text) width) :
    grid text = .ok (drawnRows text) := by
  obtain ⟨first, others, drawn, -, read⟩ := grid_of_filled (not_blank_of_rectangle rectangle)
  rw [drawn] at rectangle ⊢
  have even : raggedRow? first.length 1 (first :: others) = none := by
    rw [raggedRow?_eq_none_iff, rectangle.even first List.mem_cons_self]
    exact rectangle.even
  rw [read, even]

theorem grid_of_firstRagged {above : List (List UInt8)} {row : List UInt8} {width : Nat}
    (ragged : FirstRagged (drawnRows text) above row width) : grid text =
      .error (.invalidLine (above.length + 1) s!"expected {width} columns, found {row.length}") := by
  have filled : trim text ≠ [] := by
    intro blank
    rw [drawnRows_of_blank blank] at ragged
    obtain ⟨below, whole⟩ := ragged.whole
    cases above with
    | nil => exact ragged.some rfl
    | cons earlier above => simp at whole
  obtain ⟨first, others, drawn, -, read⟩ := grid_of_filled filled
  rw [drawn] at ragged
  obtain ⟨below, whole⟩ := ragged.whole
  have found := raggedRow?_eq_some_iff.mpr
    ⟨above, row, below, whole, ragged.even, ragged.ragged, Nat.add_comm 1 _, rfl⟩
  rw [read, ragged.length_first, found]

/-- A text is read as a grid when the rows that it draws are a rectangle. -/
theorem grid_eq_ok_iff {rows : List (List UInt8)} :
    grid text = .ok rows ↔ rows = drawnRows text ∧ ∃ width, Rectangle rows width := by
  constructor
  · intro read
    obtain blank | ⟨width, rectangle⟩ | ⟨above, row, width, ragged⟩ := drawnRows_cases text
    · exact absurd ((grid_of_blank blank).symm.trans read) (by simp)
    · obtain rfl := Except.ok.inj ((grid_of_rectangle rectangle).symm.trans read)
      exact ⟨rfl, width, rectangle⟩
    · exact absurd ((grid_of_firstRagged ragged).symm.trans read) (by simp)
  · rintro ⟨rfl, width, rectangle⟩
    exact grid_of_rectangle rectangle

/-- A text of blanks is no grid, nor is one that draws a row of another width than the first one. -/
theorem grid_eq_error_iff {error : ParseError} : grid text = .error error ↔
    ((∀ char ∈ text, isBlank char = true) ∧ error = .missingData "empty grid") ∨
    ∃ above row width, FirstRagged (drawnRows text) above row width ∧
      error = .invalidLine (above.length + 1) s!"expected {width} columns, found {row.length}" := by
  rw [← trim_eq_nil_iff]
  constructor
  · intro refused
    obtain blank | ⟨width, rectangle⟩ | ⟨above, row, width, ragged⟩ := drawnRows_cases text
    · exact .inl ⟨blank, Except.error.inj (refused.symm.trans (grid_of_blank blank))⟩
    · exact absurd ((grid_of_rectangle rectangle).symm.trans refused) (by simp)
    · exact .inr ⟨above, row, width, ragged,
        Except.error.inj (refused.symm.trans (grid_of_firstRagged ragged))⟩
  · rintro (⟨blank, rfl⟩ | ⟨above, row, width, ragged, rfl⟩)
    · exact grid_of_blank blank
    · exact grid_of_firstRagged ragged

section Cells

variable {noun : String} {cell : UInt8 → Option α} {number : Nat}

theorem readRow_eq_ok_iff {row : List UInt8} {values : List α} :
    readRow noun cell number row = .ok values ↔ row.map cell = values.map some := by
  induction row generalizing values with
  | nil => cases values <;> simp [readRow]
  | cons byte row ih =>
    rw [readRow]
    cases read : cell byte with
    | none => cases values <;> simp [read]
    | some value => cases values <;> simp [read, map_eq_ok_iff, ih, and_comm]

theorem readRows_eq_ok_iff {rows : List (List UInt8)} {values : List (List α)} :
    readRows noun cell number rows = .ok values ↔
      rows.map (List.map cell) = values.map (List.map some) := by
  induction rows generalizing number values with
  | nil => cases values <;> simp [readRows]
  | cons row rows ih =>
    rw [readRows, bind_eq_ok_iff]
    simp only [readRow_eq_ok_iff, bind_eq_ok_iff, ih, pure, Except.pure, Except.ok.injEq]
    cases values <;> simp

/-- A grid of cells is read when the drawn rows are a rectangle and each of their bytes is a cell. -/
theorem cellGrid_eq_ok_iff {cells : List (List α)} : cellGrid noun cell text = .ok cells ↔
    (∃ width, Rectangle (drawnRows text) width) ∧
      (drawnRows text).map (List.map cell) = cells.map (List.map some) := by
  simp only [cellGrid, bind_eq_ok_iff, grid_eq_ok_iff, readRows_eq_ok_iff]
  constructor
  · rintro ⟨_, ⟨rfl, rectangle⟩, read⟩
    exact ⟨rectangle, read⟩
  · rintro ⟨rectangle, read⟩
    exact ⟨_, ⟨rfl, rectangle⟩, read⟩

theorem Rectangle.of_map {rows : List (List UInt8)} {cells : List (List α)} {width : Nat}
    (rectangle : Rectangle rows width)
    (read : rows.map (List.map cell) = cells.map (List.map some)) : Rectangle cells width := by
  have lengths : rows.map List.length = cells.map List.length := by
    simpa [Function.comp_def] using congrArg (List.map List.length) read
  refine ⟨?_, rectangle.wide, ?_⟩
  · rintro rfl
    exact rectangle.tall (by simpa using lengths)
  · intro row listed
    have length := List.mem_map_of_mem (f := List.length) listed
    rw [← lengths] at length
    obtain ⟨original, among, same⟩ := List.mem_map.mp length
    rw [← same, rectangle.even original among]

end Cells

end Input

end PuzzleCalendar
