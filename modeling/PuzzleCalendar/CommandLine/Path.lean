import PuzzleCalendar.Text.Basic

/-! # Paths

A path is a text whose components are separated by slashes. Joining keeps the texts as they are
written.
-/

namespace PuzzleCalendar.CommandLine

open Text

/-- The text of a path. -/
abbrev Path := Text

namespace Path

/-- The path that leads on from a directory. An absolute path replaces it. -/
def join (directory path : Path) : Path :=
  match path with
  | '/' :: _ => path
  | _ =>
    if directory.isEmpty || directory.getLast? = some '/' then directory ++ path
    else directory ++ '/' :: path

/-- A component that names no entry of a directory. -/
def isIdle (component : Text) : Bool := component.isEmpty || component = ['.']

/-- Components without the idle ones at both ends. -/
def trimIdle (components : List Text) : List Text :=
  ((components.dropWhile isIdle).reverse.dropWhile isIdle).reverse

/-- A path with the home directory in place of a tilde that is its first component. -/
def expandHome (home? : Option Path) (path : Path) : Path :=
  match home?, splitAll '/' path with
  | some home, ['~'] :: rest => join home (['/'].intercalate (trimIdle rest))
  | _, _ => path

end Path

end PuzzleCalendar.CommandLine
