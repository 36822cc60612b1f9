import PuzzleCalendar.Number.Total

/-! # Square pictures

A picture of size `n` lights some of its `n × n` cells. It can be turned and mirrored, which gives its
eight orientations, and each of its four sides shows a border. A border read either way round has the
same canonical form, so that a side and the side that touches it after mirroring agree.
-/

namespace PuzzleCalendar.Jigsaw

/-- A square of lit and dark cells. -/
structure Picture (size : Nat) where
  rows : Vector (Vector Bool size) size
deriving DecidableEq

/-- The cells along one side, from left to right or from top to bottom. -/
abbrev Border (size : Nat) := Vector Bool size

namespace Picture

variable {size : Nat}

/-- The cell at a row and a column. -/
def cell (picture : Picture size) (row column : Fin size) : Bool :=
  picture.rows[row][column]

/-- The picture with given cells. -/
def ofFn (cell : Fin size → Fin size → Bool) : Picture size :=
  ⟨Vector.ofFn fun row => Vector.ofFn fun column => cell row column⟩

@[simp] theorem cell_ofFn (f : Fin size → Fin size → Bool) (row column : Fin size) :
    (ofFn f).cell row column = f row column := by
  simp [cell, ofFn]

theorem ext_cell {left right : Picture size}
    (same : ∀ row column, left.cell row column = right.cell row column) : left = right := by
  obtain ⟨leftRows⟩ := left
  obtain ⟨rightRows⟩ := right
  congr 1
  apply Vector.ext
  intro row rowBound
  apply Vector.ext
  intro column columnBound
  exact same ⟨row, rowBound⟩ ⟨column, columnBound⟩

@[simp] theorem ofFn_cell (picture : Picture size) : ofFn picture.cell = picture :=
  ext_cell fun row column => cell_ofFn picture.cell row column

/-- The picture turned by a quarter to the right. -/
def rotate (picture : Picture size) : Picture size :=
  ofFn fun row column => picture.cell column.rev row

/-- The picture mirrored from left to right. -/
def flip (picture : Picture size) : Picture size :=
  ofFn fun row column => picture.cell row column.rev

@[simp] theorem cell_rotate (picture : Picture size) (row column : Fin size) :
    picture.rotate.cell row column = picture.cell column.rev row :=
  cell_ofFn _ row column

@[simp] theorem cell_flip (picture : Picture size) (row column : Fin size) :
    picture.flip.cell row column = picture.cell row column.rev :=
  cell_ofFn _ row column

@[simp] theorem flip_flip (picture : Picture size) : picture.flip.flip = picture :=
  ext_cell fun row column => by simp

@[simp] theorem rotate_four (picture : Picture size) :
    picture.rotate.rotate.rotate.rotate = picture :=
  ext_cell fun row column => by simp

/-- The picture turned by every number of quarters, each time after its mirror image. -/
def orientations (picture : Picture size) : List (Picture size) :=
  [picture, picture.rotate, picture.rotate.rotate, picture.rotate.rotate.rotate].flatMap
    fun turned => [turned.flip, turned]

/-- The border of the first row. -/
def top (picture : Picture size) : Border size :=
  Vector.ofFn fun column => picture.cell ⟨0, column.pos⟩ column

/-- The border of the last row. -/
def bottom (picture : Picture size) : Border size :=
  Vector.ofFn fun column => picture.cell (Fin.rev ⟨0, column.pos⟩) column

/-- The border of the first column. -/
def left (picture : Picture size) : Border size :=
  Vector.ofFn fun row => picture.cell row ⟨0, row.pos⟩

/-- The border of the last column. -/
def right (picture : Picture size) : Border size :=
  Vector.ofFn fun row => picture.cell row (Fin.rev ⟨0, row.pos⟩)

/-- A picture from its rows, when they are as many and as long as its size. -/
def ofRows? (size : Nat) (rows : List (List Bool)) : Option (Picture size) :=
  if rows.length = size ∧ ∀ row ∈ rows, row.length = size then
    some (ofFn fun row column => (rows[row.val]?.bind (·[column.val]?)).getD false)
  else none

/-- The cell at a row and a column, when the picture has it. -/
def cell? (picture : Picture size) (row column : Nat) : Option Bool :=
  if inside : row < size ∧ column < size then
    some (picture.cell ⟨row, inside.1⟩ ⟨column, inside.2⟩)
  else none

/-- A cell by numbers; outside the picture nothing is lit. -/
def isLit (picture : Picture size) (row column : Nat) : Bool :=
  if inside : row < size ∧ column < size then
    picture.cell ⟨row, inside.1⟩ ⟨column, inside.2⟩
  else false

/-- The number of lit cells. -/
def litCount (picture : Picture size) : Nat :=
  Number.total (picture.rows.toList.map fun row => row.toList.count true)

end Picture

namespace Border

/-- The first of two lists of cells of one length in the order of a dictionary, dark before lit. -/
def precedes : List Bool → List Bool → Bool
  | first :: rest, second :: others => if first = second then precedes rest others else second
  | _, _ => true

/-- The border or its reverse, whichever comes first. -/
def canonical {size : Nat} (border : Border size) : Border size :=
  if precedes border.toList border.reverse.toList then border else border.reverse

end Border

end PuzzleCalendar.Jigsaw
