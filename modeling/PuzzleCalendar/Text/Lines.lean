import PuzzleCalendar.Text.Basic

/-! # Lines

Lines end at a line feed. A carriage return right before it belongs to the line end, and a text that
ends with a line feed has no empty line after it.
-/

namespace PuzzleCalendar.Text

/-- The line without the carriage return that a line feed follows. -/
def dropReturn (line : Text) : Text :=
  (dropTail? ['\r'] line).getD line

/-- The lines of a text. -/
def lines (text : Text) : List Text :=
  go (splitAll '\n' text)
where
  /-- Every piece but the last one was ended by a line feed. -/
  go : List Text → List Text
    | [] => []
    | [last] => if last.isEmpty then [] else [last]
    | line :: rest => dropReturn line :: go rest

@[simp] theorem lines_nil : lines [] = [] := rfl

end PuzzleCalendar.Text
