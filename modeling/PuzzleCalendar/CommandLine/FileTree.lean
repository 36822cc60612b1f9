import PuzzleCalendar.CommandLine.InputStore

/-! # File trees

A directory of files in memory. Reading a path follows its components from that directory on. What lies
above the directory is taken to be empty.
-/

namespace PuzzleCalendar.CommandLine

open Text

/-- A file with its bytes, or a directory with the names of its entries. -/
inductive FileTree where
  | file (content : ByteArray)
  | directory (entries : List (Text × FileTree))

namespace FileTree

/-- The directory without an entry. -/
def empty : FileTree := .directory []

/-- The entries with one replaced or added. -/
def withEntry (entries : List (Text × FileTree)) (name : Text) (tree : FileTree) :
    List (Text × FileTree) :=
  entries.filter (·.1 != name) ++ [(name, tree)]

/-- The tree with another one at the end of some components. Directories on the way are made. -/
def insert (tree : FileTree) (leaf : FileTree) : List Text → FileTree
  | [] => leaf
  | name :: rest =>
    let entries := match tree with
      | .directory entries => entries
      | .file _ => []
    .directory (withEntry entries name (((entries.lookup name).getD empty).insert leaf rest))

/-- The tree at the end of some components; `above` holds the directories above the current tree, the
nearest first. A component that is empty or a dot stays in its directory and two dots leave it. -/
def find (above : List FileTree) (tree : FileTree) : List Text → Except FileError FileTree
  | [] => .ok tree
  | name :: rest =>
    match tree with
    | .file _ => .error (.unreadable "Not a directory (os error 20)")
    | .directory entries =>
      if Path.isIdle name then find above tree rest
      else if name = ['.', '.'] then find above.tail (above.headD empty) rest
      else
        match entries.lookup name with
        | none => .error .missing
        | some inner => find (tree :: above) inner rest

/-- The tree at a path. -/
def atPath (tree : FileTree) (path : Path) : Except FileError FileTree :=
  match path with
  | [] => .error .missing
  | '/' :: rest => find [] empty (splitAll '/' rest)
  | _ => find [] tree (splitAll '/' path)

/-- The text of a file. -/
def decode (content : ByteArray) : Except FileError Text :=
  match String.fromUTF8? content with
  | some text => .ok text.toList
  | none => .error (.unreadable "stream did not contain valid UTF-8")

/-- Reads the file at a path. -/
def read (tree : FileTree) (path : Path) : Except FileError Text :=
  match tree.atPath path with
  | .error error => .error error
  | .ok (.directory _) => .error (.unreadable "Is a directory (os error 21)")
  | .ok (.file content) => decode content

end FileTree

end PuzzleCalendar.CommandLine
