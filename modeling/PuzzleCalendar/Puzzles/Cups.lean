import PuzzleCalendar.Input
import PuzzleCalendar.Puzzle

/-! # Cups

Labelled cups stand in a circle, and one of them is the current cup. A move picks up the three cups
after it and puts them back after the cup with the next lower label that is still there; then the next
cup is the current one. The circle is the cup after each label.
-/

namespace PuzzleCalendar.Cups

/-- The cup after each label, and the current cup. No cup has the label zero. -/
structure Circle where
  next : Array Nat
  current : Nat
deriving DecidableEq, Repr

namespace Circle

/-- The cup after a cup. -/
def after (circle : Circle) (label : Nat) : Nat := circle.next.getD label 0

/-- The labels, and after them all further ones up to `total`. -/
def order (labels : List Nat) (total : Nat) : List Nat :=
  labels ++ List.range' (labels.length + 1) (total - labels.length)

/-- The circle of the labels and all further ones up to `total`; the first cup is the current one. -/
def ofLabels (labels : List Nat) (total : Nat) : Circle :=
  match order labels total with
  | [] => ⟨#[0], 0⟩
  | first :: rest =>
    let size := (first :: rest).length
    { next := ((first :: rest).zip (rest ++ [first])).foldl
        (fun next pair => next.setIfInBounds pair.1 pair.2) (Array.replicate (size + 1) 0)
      current := first }

/-- The greatest label. -/
def highest (circle : Circle) : Nat := circle.next.size - 1

/-- The label below a label; the greatest one is below the first. -/
def below (circle : Circle) (label : Nat) : Nat :=
  if label = 1 then circle.highest else label - 1

theorem length_erase_lt {picked : List Nat} {label : Nat} (member : label ∈ picked) :
    (picked.erase label).length < picked.length := by
  rw [List.length_erase_of_mem member]
  exact Nat.sub_lt (List.length_pos_of_mem member) Nat.one_pos

/-- The first label that is not picked up, from `label` on downwards. -/
def destination (circle : Circle) (picked : List Nat) (label : Nat) : Nat :=
  if member : label ∈ picked then
    have := length_erase_lt member
    circle.destination (picked.erase label) (circle.below label)
  else label
termination_by picked.length

/-- One move. -/
def move (circle : Circle) : Circle :=
  let first := circle.after circle.current
  let second := circle.after first
  let third := circle.after second
  let target := circle.destination [first, second, third] (circle.below circle.current)
  let following := circle.after third
  let beyond := circle.after target
  let next := circle.next.setIfInBounds circle.current following
  let next := next.setIfInBounds third beyond
  let next := next.setIfInBounds target first
  { next, current := next.getD circle.current 0 }

/-- The circle after some moves. -/
def play : Nat → Circle → Circle
  | 0, circle => circle
  | moves + 1, circle => play moves circle.move

/-- The labels from `label` on up to the first cup, at most `count` of them. -/
def labelsFrom (circle : Circle) : Nat → Nat → List Nat
  | 0, _ => []
  | count + 1, label =>
    if label = 1 then [] else label :: circle.labelsFrom count (circle.after label)

/-- The labels after the first cup, which are all but its own. -/
def afterFirst (circle : Circle) : List Nat :=
  circle.labelsFrom circle.highest (circle.after 1)

end Circle

/-- Reads the label of a cup. -/
def readLabel (char : Char) : Except ParseError Nat :=
  if char.isDigit then .ok (char.toNat - '0'.toNat)
  else .error (.invalidFormat ("cup label " ++ Text.quotedChar char))

/-- The labels of the cups, which are the numbers from one on. -/
def parse (text : Text) : Outcome ParseError (List Nat) :=
  Outcome.ofExcept do
    let line := Text.trim text
    let labels ← line.mapM readLabel
    if labels.isEmpty || labels.mergeSort (· ≤ ·) != List.range' 1 labels.length then
      .error (.invalidFormat
        (s!"cups must be labelled 1 to {labels.length}, got " ++ Text.quoted line))
    else if labels.length < 5 then .error (.invalidFormat "at least 5 cups are needed")
    else pure labels

/-- The labels after the first cup, after a hundred moves. -/
def shortGame (labels : List Nat) : Outcome SolveError String :=
  let circle := (Circle.ofLabels labels labels.length).play 100
  .ok (String.join (circle.afterFirst.map toString))

/-- The product of the two labels after the first cup, after ten million moves of a million cups. -/
def longGame (labels : List Nat) : Outcome SolveError String :=
  let circle := (Circle.ofLabels labels 1000000).play 10000000
  .ok (toString (circle.after 1 * circle.after (circle.after 1)))

/-- The cups. -/
def puzzle : Puzzle := Puzzle.ofParts parse shortGame longGame

end PuzzleCalendar.Cups
