import PuzzleCalendar.Text.Basic

/-! # Blanks

A blank is a character of the property White_Space. Trimming takes the blanks off the ends of a text
and the words of a text are the runs of other characters in it.
-/

namespace PuzzleCalendar.Text

/-- The ranges of the property White_Space. -/
def blanks : CharRanges := [
    (0x9, 0xd), (0x20, 0x20), (0x85, 0x85), (0xa0, 0xa0), (0x1680, 0x1680), (0x2000, 0x200a),
    (0x2028, 0x2029), (0x202f, 0x202f), (0x205f, 0x205f), (0x3000, 0x3000)]

/-- A character that trimming takes away. -/
def isBlank (char : Char) : Bool := blanks.contains char

/-- The text without the blanks at its start. -/
def trimStart (text : Text) : Text := text.dropWhile isBlank

/-- The text without the blanks at its end. -/
def trimEnd (text : Text) : Text := (text.reverse.dropWhile isBlank).reverse

/-- The text without the blanks at its ends. -/
def trim (text : Text) : Text := trimEnd (trimStart text)

/-- The runs of characters that are not blank. -/
def words : Text → List Text
  | [] => []
  | char :: text =>
    if isBlank char then words text
    else
      match text with
      | [] => [[char]]
      | next :: _ =>
        if isBlank next then [char] :: words text
        else
          match words text with
          | [] => [[char]]
          | word :: rest => (char :: word) :: rest

theorem trimEnd_concat_blank {char : Char} (blank : isBlank char = true) (text : Text) :
    trimEnd (text ++ [char]) = trimEnd text := by
  simp [trimEnd, blank]

theorem trimEnd_concat {char : Char} (solid : isBlank char = false) (text : Text) :
    trimEnd (text ++ [char]) = text ++ [char] := by
  simp [trimEnd, solid]

theorem trimStart_cons_blank {char : Char} (blank : isBlank char = true) (text : Text) :
    trimStart (char :: text) = trimStart text := by
  simp [trimStart, blank]

theorem trimStart_cons {char : Char} (solid : isBlank char = false) (text : Text) :
    trimStart (char :: text) = char :: text := by
  simp [trimStart, solid]

end PuzzleCalendar.Text
