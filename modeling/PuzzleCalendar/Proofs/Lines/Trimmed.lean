import Mathlib.Data.List.DropRight
import PuzzleCalendar.Input

/-! # Trimmed lines

The shapes of puzzle input are read from the pieces between the line feeds of a text, each of them
trimmed. Records leave out the blank ones at the end, a grid those at both ends, and blocks all of
them. Trimming the whole text first does no more than that, and neither do carriage returns at line
ends or a last line without a line feed.
-/

namespace PuzzleCalendar

namespace Text

/-- The pieces between line feeds, each of them trimmed. A text that ends with a line feed has an
empty piece after it. -/
def trimmedLines (text : Text) : List Text := (splitAll '\n' text).map trim

variable {mark char : Char} {text : Text}

theorem splitAll_cons_self (mark : Char) (text : Text) :
    splitAll mark (mark :: text) = [] :: splitAll mark text := by
  simp [splitAll]

theorem splitAll_cons_of_ne (other : char ≠ mark) (text : Text) : ∃ piece pieces,
    splitAll mark text = piece :: pieces ∧ splitAll mark (char :: text) = (char :: piece) :: pieces := by
  cases split : splitAll mark text with
  | nil => exact absurd split (splitAll_ne_nil mark text)
  | cons piece pieces => exact ⟨piece, pieces, rfl, by simp [splitAll, other, split]⟩

theorem splitAll_concat_self (mark : Char) (text : Text) :
    splitAll mark (text ++ [mark]) = splitAll mark text ++ [[]] := by
  induction text with
  | nil => simp [splitAll]
  | cons char text ih =>
    by_cases same : char = mark
    · simp [splitAll, same, ih]
    · obtain ⟨piece, pieces, split, -⟩ := splitAll_cons_of_ne same text
      simp [splitAll, same, ih, split]

theorem splitAll_concat_of_ne (other : char ≠ mark) (text : Text) : ∃ pieces piece,
    splitAll mark text = pieces ++ [piece] ∧
      splitAll mark (text ++ [char]) = pieces ++ [piece ++ [char]] := by
  induction text with
  | nil => exact ⟨[], [], by simp [splitAll], by simp [splitAll, other]⟩
  | cons first text ih =>
    obtain ⟨pieces, piece, split, longer⟩ := ih
    by_cases same : first = mark
    · exact ⟨[] :: pieces, piece, by simp [splitAll, same, split], by simp [splitAll, same, longer]⟩
    · cases pieces with
      | nil => exact ⟨[], first :: piece, by simp_all [splitAll], by simp_all [splitAll]⟩
      | cons head pieces =>
        exact ⟨(first :: head) :: pieces, piece, by simp_all [splitAll], by simp_all [splitAll]⟩

theorem eq_of_splitAll_eq_singleton {piece : Text} (whole : splitAll mark text = [piece]) :
    text = piece := by
  induction text generalizing piece with
  | nil => simpa [splitAll] using whole
  | cons char text ih =>
    by_cases same : char = mark
    · rw [same, splitAll_cons_self, List.cons_eq_cons] at whole
      exact absurd whole.2 (splitAll_ne_nil mark text)
    · obtain ⟨first, pieces, split, longer⟩ := splitAll_cons_of_ne same text
      obtain ⟨rfl, rfl⟩ := List.cons_eq_cons.mp (longer.symm.trans whole)
      rw [ih split]

theorem splitAll_of_notMem (absent : mark ∉ text) : splitAll mark text = [text] := by
  induction text with
  | nil => rfl
  | cons char text ih =>
    obtain ⟨other, absent⟩ := not_or.mp (List.mem_cons.not.mp absent)
    simp [splitAll, Ne.symm other, ih absent]

theorem splitAll_eq_splitOn (mark : Char) (text : Text) : splitAll mark text = text.splitOn mark := by
  induction text with
  | nil => rfl
  | cons char text ih =>
    by_cases same : char = mark
    · rw [same, splitAll_cons_self, ih, List.splitOn_cons_eq_if_modifyHead, if_pos (beq_self_eq_true _)]
    · obtain ⟨piece, pieces, split, longer⟩ := splitAll_cons_of_ne same text
      rw [longer, List.splitOn_cons_eq_if_modifyHead, if_neg (by simpa using same), ← ih, split]
      rfl

theorem splitAll_append (mark : Char) (text other : Text) :
    splitAll mark (text ++ mark :: other) = splitAll mark text ++ splitAll mark other := by
  simp only [splitAll_eq_splitOn, List.splitOn_append_cons_self]

theorem notMem_of_mem_splitAll {piece : Text} (member : piece ∈ splitAll mark text) : mark ∉ piece := by
  induction text generalizing piece with
  | nil =>
    obtain rfl : piece = [] := by simpa [splitAll] using member
    exact List.not_mem_nil
  | cons char text ih =>
    by_cases same : char = mark
    · rw [same, splitAll_cons_self] at member
      obtain rfl | member := List.mem_cons.mp member
      · exact List.not_mem_nil
      · exact ih member
    · obtain ⟨first, pieces, split, longer⟩ := splitAll_cons_of_ne same text
      rw [longer] at member
      rw [split] at ih
      obtain rfl | member := List.mem_cons.mp member
      · exact List.not_mem_cons_of_ne_of_not_mem (Ne.symm same) (ih List.mem_cons_self)
      · exact ih (List.mem_cons_of_mem _ member)

/-- A line feed is blank. -/
theorem ne_newline (solid : isBlank char = false) : char ≠ '\n' := by
  rintro rfl
  exact absurd solid (by decide)

theorem trim_append_blanks {pad : Text} (blank : ∀ char ∈ pad, isBlank char = true) (text : Text) :
    trim (text ++ pad) = trim text := by
  have front : pad.dropWhile isBlank = [] := by simpa using blank
  have back : pad.reverse.dropWhile isBlank = [] := by simpa using blank
  rw [trim, trim, trimStart, trimStart, List.dropWhile_append]
  split
  · rename_i none
    rw [front, List.isEmpty_iff.mp none]
  · simp [trimEnd, List.dropWhile_append, back]

theorem trim_append_return (text : Text) : trim (text ++ ['\r']) = trim text :=
  trim_append_blanks (List.forall_mem_singleton.mpr rfl) text

theorem trim_blanks_append {pad : Text} (blank : ∀ char ∈ pad, isBlank char = true) (text : Text) :
    trim (pad ++ text) = trim text := by
  have front : pad.dropWhile isBlank = [] := by simpa using blank
  simp [trim, trimStart, List.dropWhile_append, front]

theorem trimEnd_cons (solid : isBlank char = false) (text : Text) :
    trimEnd (char :: text) = char :: trimEnd text := by
  rw [trimEnd, trimEnd, List.reverse_cons, List.dropWhile_append]
  split
  · rename_i none
    simp [List.isEmpty_iff.mp none, solid]
  · simp

theorem trim_cons (solid : isBlank char = false) (text : Text) :
    trim (char :: text) = char :: trimEnd text := by
  rw [trim, trimStart_cons solid, trimEnd_cons solid]

theorem trim_concat_ne_nil (solid : isBlank char = false) (text : Text) :
    trim (text ++ [char]) ≠ [] := by
  rw [trim, trimStart, List.dropWhile_append]
  split <;> simp [trimEnd, solid]

/-- A trimmed text ends with a character that is not blank. -/
theorem exists_last_of_trim (filled : trim text ≠ []) :
    ∃ before char, trim text = before ++ [char] ∧ isBlank char = false :=
  ⟨_, _, (List.dropLast_concat_getLast filled).symm,
    Bool.eq_false_iff.mpr (List.rdropWhile_last_not isBlank (trimStart text) filled)⟩

/-- A trimmed text starts with a character that is not blank. -/
theorem exists_first_of_trim (filled : trim text ≠ []) :
    ∃ char rest, trim text = char :: rest ∧ isBlank char = false := by
  have first := List.head?_dropWhile_not isBlank text
  rw [trim, trimStart] at filled ⊢
  cases left : text.dropWhile isBlank with
  | nil =>
    rw [left] at filled
    exact absurd rfl filled
  | cons char rest =>
    rw [left] at first
    exact ⟨char, trimEnd rest, trimEnd_cons first rest, first⟩

@[simp] theorem trim_trim (text : Text) : trim (trim text) = trim text := by
  have first := List.head?_dropWhile_not isBlank text
  rw [trim.eq_def text, trimStart]
  cases left : text.dropWhile isBlank with
  | nil => rfl
  | cons char rest =>
    rw [left] at first
    rw [trimEnd_cons first, trim_cons first]
    exact congrArg (char :: ·) (List.rdropWhile_idempotent isBlank rest)

theorem trim_sublist (text : Text) : (trim text).Sublist text := by
  have ends : (trim text).Sublist (trimStart text) := by
    rw [← List.reverse_sublist, trim, trimEnd, List.reverse_reverse]
    exact List.dropWhile_sublist isBlank
  exact ends.trans (List.dropWhile_sublist isBlank)

theorem trim_eq_nil_iff : trim text = [] ↔ ∀ char ∈ text, isBlank char = true := by
  constructor
  · intro none char member
    rw [trim, trimEnd, List.reverse_eq_nil_iff, List.dropWhile_eq_nil_iff] at none
    rw [← List.takeWhile_append_dropWhile (p := isBlank) (l := text)] at member
    obtain before | after := List.mem_append.mp member
    · exact List.mem_takeWhile_imp before
    · exact none char (List.mem_reverse.mpr after)
  · intro blank
    exact trim_append_blanks blank []

theorem trim_dropReturn (line : Text) : trim (dropReturn line) = trim line := by
  unfold dropReturn
  cases cut : dropTail? ['\r'] line with
  | none => rfl
  | some rest =>
    rw [dropTail?_eq_some_iff.mp cut, trim_append_return]
    rfl

/-- The last piece is a line unless it is empty. -/
theorem map_trim_lines {pieces : List Text} {last : Text}
    (split : splitAll '\n' text = pieces ++ [last]) :
    (lines text).map trim = pieces.map trim ++ if last.isEmpty then [] else [trim last] := by
  rw [lines, split]
  clear split
  induction pieces with
  | nil =>
    rw [List.nil_append, lines.go]
    split <;> rfl
  | cons piece pieces ih =>
    have first : lines.go (piece :: (pieces ++ [last])) =
        dropReturn piece :: lines.go (pieces ++ [last]) := by
      cases pieces <;> rfl
    rw [List.cons_append, first, List.map_cons, ih, trim_dropReturn, List.map_cons, List.cons_append]

/-- The last piece of a trimmed text is one of its lines. -/
theorem map_trim_lines_of_trim (filled : trim text ≠ []) :
    (lines (trim text)).map trim = trimmedLines (trim text) := by
  obtain ⟨before, char, ends, solid⟩ := exists_last_of_trim filled
  obtain ⟨pieces, piece, -, split⟩ := splitAll_concat_of_ne (ne_newline solid) before
  rw [ends, map_trim_lines split, trimmedLines, split, List.map_append]
  simp

/-- The trimmed lines are the lines, trimmed, but for the empty piece after the last line feed. -/
theorem trimmedLines_eq (text : Text) : trimmedLines text = (lines text).map trim ∨
    trimmedLines text = (lines text).map trim ++ [[]] := by
  obtain none | ⟨pieces, last, split⟩ := (splitAll '\n' text).eq_nil_or_concat
  · exact absurd none (splitAll_ne_nil '\n' text)
  · rw [List.concat_eq_append] at split
    rw [map_trim_lines split, trimmedLines, split, List.map_append]
    cases last with
    | nil => exact .inr (by simp [trim, trimStart, trimEnd])
    | cons char last => exact .inl rfl

@[simp] theorem trimmedLines_cons_newline (text : Text) :
    trimmedLines ('\n' :: text) = [] :: trimmedLines text := by
  rw [trimmedLines, splitAll_cons_self]
  rfl

@[simp] theorem trimmedLines_concat_newline (text : Text) :
    trimmedLines (text ++ ['\n']) = trimmedLines text ++ [[]] := by
  rw [trimmedLines, splitAll_concat_self, List.map_append]
  rfl

theorem trimmedLines_append_newline (text other : Text) :
    trimmedLines (text ++ '\n' :: other) = trimmedLines text ++ trimmedLines other := by
  rw [trimmedLines, splitAll_append, List.map_append, trimmedLines, trimmedLines]

theorem trimmedLines_of_notMem (absent : '\n' ∉ text) : trimmedLines text = [trim text] := by
  rw [trimmedLines, splitAll_of_notMem absent, List.map_singleton]

theorem trim_of_mem_trimmedLines {line : Text} (member : line ∈ trimmedLines text) : trim line = line := by
  obtain ⟨piece, -, rfl⟩ := List.mem_map.mp member
  exact trim_trim piece

theorem newline_notMem_of_mem_trimmedLines {line : Text} (member : line ∈ trimmedLines text) :
    '\n' ∉ line := by
  obtain ⟨piece, split, rfl⟩ := List.mem_map.mp member
  exact fun within => notMem_of_mem_splitAll split ((trim_sublist piece).subset within)

theorem trimmedLines_cons_blank (blank : isBlank char = true) (other : char ≠ '\n') (text : Text) :
    trimmedLines (char :: text) = trimmedLines text := by
  obtain ⟨piece, pieces, split, longer⟩ := splitAll_cons_of_ne other text
  have same : trim (char :: piece) = trim piece :=
    trim_blanks_append (List.forall_mem_singleton.mpr blank) piece
  rw [trimmedLines, trimmedLines, split, longer, List.map_cons, List.map_cons, same]

theorem trimmedLines_concat_blank (blank : isBlank char = true) (other : char ≠ '\n') (text : Text) :
    trimmedLines (text ++ [char]) = trimmedLines text := by
  obtain ⟨pieces, piece, split, longer⟩ := splitAll_concat_of_ne other text
  have same : trim (piece ++ [char]) = trim piece :=
    trim_append_blanks (List.forall_mem_singleton.mpr blank) piece
  rw [trimmedLines, trimmedLines, split, longer, List.map_append, List.map_append, List.map_singleton,
    List.map_singleton, same]

/-- The lines from the first one that is not blank to the last one. -/
def core (lines : List Text) : List Text :=
  (lines.dropWhile List.isEmpty).rdropWhile List.isEmpty

end Text

namespace Input

open Text

/-- Trimming the end of a text takes away the blank lines at its end. -/
theorem recordLines_eq (text : Text) :
    recordLines text = (trimmedLines text).rdropWhile List.isEmpty := by
  induction text using List.reverseRecOn with
  | nil => rfl
  | append_singleton text char ih =>
    rw [recordLines] at ih ⊢
    cases blank : isBlank char with
    | true =>
      rw [trimEnd_concat_blank blank, ih]
      by_cases newline : char = '\n'
      · rw [newline, trimmedLines_concat_newline, List.rdropWhile_concat_pos _ _ _ rfl]
      · rw [trimmedLines_concat_blank blank newline]
    | false =>
      obtain ⟨pieces, piece, -, longer⟩ := splitAll_concat_of_ne (ne_newline blank) text
      have filled := trim_concat_ne_nil blank piece
      rw [trimEnd_concat blank, map_trim_lines longer, trimmedLines, longer, List.map_append,
        List.map_singleton, List.rdropWhile_concat_neg _ _ _ (by simpa using filled)]
      simp

/-- Trimming a text takes away the blank lines at its ends. -/
theorem map_trim_lines_trim (text : Text) :
    (lines (trim text)).map trim = core (trimmedLines text) := by
  have start : (lines (trim text)).map trim = recordLines (trimStart text) := rfl
  rw [start, recordLines_eq, core]
  clear start
  induction text with
  | nil => rfl
  | cons char text ih =>
    cases blank : isBlank char with
    | true =>
      rw [trimStart_cons_blank blank, ih]
      by_cases newline : char = '\n'
      · rw [newline, trimmedLines_cons_newline, List.dropWhile_cons_of_pos rfl]
      · rw [trimmedLines_cons_blank blank newline]
    | false =>
      obtain ⟨piece, pieces, -, longer⟩ := splitAll_cons_of_ne (ne_newline blank) text
      rw [trimStart_cons blank, trimmedLines, longer, List.map_cons, trim_cons blank,
        List.dropWhile_cons_of_neg (by simp)]

/-- A text whose only line that is not blank is `line` is that line, trimmed. -/
theorem trim_eq_of_core {text line : Text} (only : core (trimmedLines text) = [line]) :
    trim text = line := by
  rw [← map_trim_lines_trim] at only
  have filled : trim text ≠ [] := by
    intro none
    simp [none] at only
  rw [map_trim_lines_of_trim filled, trimmedLines] at only
  obtain ⟨piece, split, same⟩ := List.map_eq_singleton_iff.mp only
  rw [← same, ← eq_of_splitAll_eq_singleton split, trim_trim]

/-- A grid is read from the lines that trimming the whole text leaves. -/
theorem grid_eq (text : Text) : grid text =
    match (core (trimmedLines text)).map bytes with
    | [] => .error (.missingData "empty grid")
    | row :: rows =>
      match raggedRow? row.length 1 (row :: rows) with
      | some (number, found) =>
        .error (.invalidLine number s!"expected {row.length} columns, found {found}")
      | none => .ok (row :: rows) := by
  rw [← map_trim_lines_trim, List.map_map]
  rfl

end Input

end PuzzleCalendar
