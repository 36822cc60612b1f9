import PuzzleCalendar.Text.Printable
import PuzzleCalendar.Text.Basic

/-! # Quoted text

Messages show foreign text in quotes. The quote mark, the backslash and four control characters are
escaped by a backslash, and any other character that is not printable by its code point in
hexadecimal.
-/

namespace PuzzleCalendar.Text

/-- A character between two marks `mark`. -/
def escaped (mark char : Char) : Text :=
  if char = '\x00' then ['\\', '0']
  else if char = '\t' then ['\\', 't']
  else if char = '\n' then ['\\', 'n']
  else if char = '\r' then ['\\', 'r']
  else if char = '\\' || char = mark then ['\\', char]
  else if isPrintable char then [char]
  else ['\\', 'u', '\x7b'] ++ Nat.toDigits 16 char.toNat ++ ['\x7d']

/-- A text in double quotes. -/
def quoted (text : Text) : String :=
  String.ofList (['"'] ++ text.flatMap (escaped '"') ++ ['"'])

/-- A character in single quotes. -/
def quotedChar (char : Char) : String :=
  String.ofList (['\''] ++ escaped '\'' char ++ ['\''])

end PuzzleCalendar.Text
