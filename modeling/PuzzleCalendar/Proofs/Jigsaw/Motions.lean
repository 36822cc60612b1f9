import Mathlib.Algebra.Group.Int.Units
import Mathlib.Algebra.Order.Ring.Abs
import Mathlib.Data.Fintype.Prod
import Mathlib.Tactic.Linarith
import Mathlib.Tactic.LinearCombination
import Mathlib.Tactic.Ring

/-! # The symmetries of a square of cells

Seen from the middle of a square of cells, a symmetry is one of eight motions: a rotation by up to three quarters,
with or without a reflection. For what keeps the distances between cells takes opposite corners to opposite
corners, every cell stays as far along the diagonal between them, and how far it is along both diagonals tells
which cell it is.
-/

namespace PuzzleCalendar.Jigsaw

section Motions

/-- A quarter turn to the right about the middle, on ways to the right and upwards from there. -/
def quarterTurn (way : ℤ × ℤ) : ℤ × ℤ := (way.2, -way.1)

/-- The reflection that exchanges left and right. -/
def reflection (way : ℤ × ℤ) : ℤ × ℤ := (-way.1, way.2)

/-- The rotations by up to three quarters, each of them with and without the reflection. -/
def motions : List (ℤ × ℤ → ℤ × ℤ) :=
  (List.range 4).flatMap fun quarters => [reflection ∘ quarterTurn^[quarters], quarterTurn^[quarters]]

theorem mem_motions {motion : ℤ × ℤ → ℤ × ℤ} : motion ∈ motions ↔
    ∃ quarters < 4, motion = reflection ∘ quarterTurn^[quarters] ∨ motion = quarterTurn^[quarters] := by
  simp [motions]

variable {a b c d : ℤ}

/-- Keeping or turning round each of the two directions is a motion. -/
theorem straight_mem_motions (one : IsUnit a) (two : IsUnit b) :
    (fun way => (a * way.1, b * way.2)) ∈ motions := by
  rw [mem_motions]
  rcases Int.isUnit_iff.mp one with rfl | rfl <;> rcases Int.isUnit_iff.mp two with rfl | rfl
  · exact ⟨0, by decide, .inr (funext fun way => by simp)⟩
  · exact ⟨2, by decide, .inl (funext fun way => by simp [reflection, quarterTurn])⟩
  · exact ⟨0, by decide, .inl (funext fun way => by simp [reflection])⟩
  · exact ⟨2, by decide, .inr (funext fun way => by simp [quarterTurn])⟩

/-- Exchanging the two directions and keeping or turning round each of them is a motion. -/
theorem crossed_mem_motions (one : IsUnit a) (two : IsUnit b) :
    (fun way => (a * way.2, b * way.1)) ∈ motions := by
  rw [mem_motions]
  rcases Int.isUnit_iff.mp one with rfl | rfl <;> rcases Int.isUnit_iff.mp two with rfl | rfl
  · exact ⟨3, by decide, .inl (funext fun way => by simp [reflection, quarterTurn])⟩
  · exact ⟨1, by decide, .inr (funext fun way => by simp [quarterTurn])⟩
  · exact ⟨3, by decide, .inr (funext fun way => by simp [quarterTurn])⟩
  · exact ⟨1, by decide, .inl (funext fun way => by simp [reflection, quarterTurn])⟩

/-- How far a way is along two diagonals that go to two diagonals, one across the other, determines where a motion
takes it. -/
theorem exists_motion_of_diagonals (one : IsUnit a) (two : IsUnit b) (three : IsUnit c)
    (across : a * c + b * d = 0) :
    ∃ motion ∈ motions, ∀ way moved : ℤ × ℤ, moved.1 * a + moved.2 * b = way.1 + way.2 →
      moved.1 * c + moved.2 * d = way.1 - way.2 → moved = motion way := by
  have aa := Int.isUnit_mul_self one
  have bb := Int.isUnit_mul_self two
  rcases Int.isUnit_iff.mp (one.mul three) with along | against
  · obtain rfl : a = c := by linear_combination c * aa - a * along
    obtain rfl : d = -b := by linear_combination b * across - b * along - d * bb
    refine ⟨_, straight_mem_motions one two, fun way moved sum difference => Prod.ext ?_ ?_⟩
    · have right : moved.1 * a = way.1 := by linarith
      linear_combination a * right - moved.1 * aa
    · have up : moved.2 * b = way.2 := by linarith
      linear_combination b * up - moved.2 * bb
  · obtain rfl : c = -a := by linear_combination a * against - c * aa
    obtain rfl : b = d := by linear_combination d * bb - b * across + b * against
    refine ⟨_, crossed_mem_motions one two, fun way moved sum difference => Prod.ext ?_ ?_⟩
    · have right : moved.1 * a = way.2 := by linarith
      linear_combination a * right - moved.1 * aa
    · have up : moved.2 * b = way.1 := by linarith
      linear_combination b * up - moved.2 * bb

/-- The square of the distance between the ends of two ways. -/
def apart (one two : ℤ × ℤ) : ℤ := (one.1 - two.1) ^ 2 + (one.2 - two.2) ^ 2

variable {reach : ℤ}

/-- Two numbers as far from each other as a range permits are its ends. -/
theorem exists_unit_of_far {x y : ℤ} (first : |x| ≤ reach) (second : |y| ≤ reach)
    (far : (2 * reach) ^ 2 ≤ (x - y) ^ 2) : ∃ a, IsUnit a ∧ x = reach * a ∧ y = -(reach * a) := by
  have wide : |2 * reach| ≤ |x - y| := sq_le_sq.mp far
  rw [abs_le] at first second
  rw [abs_of_nonneg (by omega)] at wide
  rcases abs_cases (x - y) with ⟨same, -⟩ | ⟨same, -⟩
  · exact ⟨1, isUnit_one, by omega, by omega⟩
  · exact ⟨-1, isUnit_one.neg, by omega, by omega⟩

/-- Two ways in a square that are as far from each other as the square permits lead to opposite corners. -/
theorem exists_units_of_apart {one two : ℤ × ℤ} (first : |one.1| ≤ reach ∧ |one.2| ≤ reach)
    (second : |two.1| ≤ reach ∧ |two.2| ≤ reach) (far : apart one two = 2 * (2 * reach) ^ 2) :
    ∃ a b, IsUnit a ∧ IsUnit b ∧ one = (reach * a, reach * b) ∧ two = (-(reach * a), -(reach * b)) := by
  have within {x y : ℤ} (first : |x| ≤ reach) (second : |y| ≤ reach) : (x - y) ^ 2 ≤ (2 * reach) ^ 2 := by
    rw [abs_le] at first second
    apply sq_le_sq' <;> omega
  have across := within first.1 second.1
  have upwards := within first.2 second.2
  rw [apart] at far
  obtain ⟨a, unit, left, right⟩ := exists_unit_of_far first.1 second.1 (by omega)
  obtain ⟨b, other, below, above⟩ := exists_unit_of_far first.2 second.2 (by omega)
  exact ⟨a, b, unit, other, Prod.ext left below, Prod.ext right above⟩

/-- Ways as far from both ends of a diagonal are as far along it. -/
theorem dot_eq_of_apart {way moved corner image : ℤ × ℤ} (near : apart moved image = apart way corner)
    (far : apart moved (-image) = apart way (-corner)) :
    moved.1 * image.1 + moved.2 * image.2 = way.1 * corner.1 + way.2 * corner.2 := by
  simp only [apart, Prod.fst_neg, Prod.snd_neg] at near far
  linarith

end Motions

section Cells

variable {size : Nat}

/-- A cell by its row and its column. -/
abbrev Cell (size : Nat) := Fin size × Fin size

/-- Twice the way from the middle of a square to the middle of a cell, to the right and upwards. -/
def way (cell : Cell size) : ℤ × ℤ := (2 * cell.2.val + 1 - size, size - 1 - 2 * cell.1.val)

/-- Twice the way from the middle of a square to the middle of a cell at its side. -/
def reach (size : Nat) : ℤ := size - 1

theorem reach_ne_zero (large : 1 < size) : reach size ≠ 0 := by
  rw [reach]
  omega

/-- The square of the distance between the middles of two cells. -/
def distance (one two : Cell size) : ℤ :=
  ((one.1.val : ℤ) - two.1.val) ^ 2 + ((one.2.val : ℤ) - two.2.val) ^ 2

/-- What takes the cells of a square to cells and keeps the distances between them. -/
def IsSymmetry (move : Cell size → Cell size) : Prop :=
  ∀ one two, distance (move one) (move two) = distance one two

theorem apart_way (one two : Cell size) : apart (way one) (way two) = 4 * distance one two := by
  simp only [apart, way, distance]
  ring

theorem abs_way_le (cell : Cell size) : |(way cell).1| ≤ reach size ∧ |(way cell).2| ≤ reach size := by
  have row := cell.1.isLt
  have column := cell.2.isLt
  simp only [way, reach, abs_le]
  omega

/-- There is a corner on every two sides. -/
theorem exists_corner (positive : 0 < size) {a b : ℤ} (one : IsUnit a) (two : IsUnit b) :
    ∃ corner : Cell size, way corner = (reach size * a, reach size * b) := by
  let first : Fin size := ⟨0, positive⟩
  have column : ∃ column : Fin size, 2 * column.val + 1 - size = reach size * a := by
    rcases Int.isUnit_iff.mp one with rfl | rfl
    · exact ⟨first.rev, by simp only [first, reach, Fin.val_rev]; omega⟩
    · exact ⟨first, by simp only [first, reach]; omega⟩
  have row : ∃ row : Fin size, size - 1 - 2 * row.val = reach size * b := by
    rcases Int.isUnit_iff.mp two with rfl | rfl
    · exact ⟨first, by simp only [first, reach]; omega⟩
    · exact ⟨first.rev, by simp only [first, reach, Fin.val_rev]; omega⟩
  obtain ⟨column, right⟩ := column
  obtain ⟨row, up⟩ := row
  exact ⟨(row, column), Prod.ext right up⟩

theorem way_injective : Function.Injective (way : Cell size → ℤ × ℤ) := by
  rintro ⟨row, column⟩ ⟨otherRow, otherColumn⟩ same
  simp only [way, Prod.mk.injEq] at same
  obtain rfl : row = otherRow := Fin.ext (by omega)
  obtain rfl : column = otherColumn := Fin.ext (by omega)
  rfl

theorem eq_of_distance_eq_zero {one two : Cell size} (near : distance one two = 0) : one = two := by
  rw [distance, add_eq_zero_iff_of_nonneg (sq_nonneg _) (sq_nonneg _), sq_eq_zero_iff, sq_eq_zero_iff] at near
  exact Prod.ext (Fin.ext (by omega)) (Fin.ext (by omega))

namespace IsSymmetry

variable {move : Cell size → Cell size}

theorem surjective (kept : IsSymmetry move) : Function.Surjective move := by
  apply Finite.injective_iff_surjective.mp
  intro one two same
  apply eq_of_distance_eq_zero
  rw [← kept one two, same, distance]
  ring

theorem apart_eq (kept : IsSymmetry move) (one two : Cell size) :
    apart (way (move one)) (way (move two)) = apart (way one) (way two) := by
  rw [apart_way, apart_way, kept]

/-- Opposite corners go to opposite corners, and every cell stays as far along the diagonal between them. -/
theorem exists_diagonal (kept : IsSymmetry move) (large : 1 < size) {a b : ℤ} (one : IsUnit a) (two : IsUnit b) :
    ∃ c d : ℤ, IsUnit c ∧ IsUnit d ∧
      (∃ corner, way corner = (reach size * a, reach size * b) ∧
        way (move corner) = (reach size * c, reach size * d)) ∧
      ∀ cell, (way (move cell)).1 * c + (way (move cell)).2 * d = (way cell).1 * a + (way cell).2 * b := by
  obtain ⟨corner, here⟩ := exists_corner (Nat.zero_lt_of_lt large) one two
  obtain ⟨opposite, there⟩ := exists_corner (Nat.zero_lt_of_lt large) one.neg two.neg
  have facing : way opposite = -way corner := by
    rw [here, there, Prod.neg_mk, mul_neg, mul_neg]
  have far : apart (way corner) (way opposite) = 2 * (2 * reach size) ^ 2 := by
    rw [facing, here, apart]
    simp only [Prod.fst_neg, Prod.snd_neg]
    linear_combination 4 * reach size ^ 2 * (Int.isUnit_mul_self one + Int.isUnit_mul_self two)
  obtain ⟨c, d, three, four, gone, back⟩ := exists_units_of_apart (abs_way_le (move corner))
    (abs_way_le (move opposite)) ((kept.apart_eq corner opposite).trans far)
  have turned : way (move opposite) = -way (move corner) := by
    rw [gone, back, Prod.neg_mk]
  refine ⟨c, d, three, four, ⟨corner, here, gone⟩, fun cell => ?_⟩
  have along := dot_eq_of_apart (kept.apart_eq cell corner) (turned ▸ facing ▸ kept.apart_eq cell opposite)
  apply mul_left_cancel₀ (reach_ne_zero large)
  rw [here, gone] at along
  linear_combination along

/-- A symmetry of the square is one of the motions. -/
theorem exists_motion (kept : IsSymmetry move) :
    ∃ motion ∈ motions, ∀ cell, way (move cell) = motion (way cell) := by
  rcases Nat.lt_or_ge 1 size with large | small
  · obtain ⟨a, b, one, two, -, along⟩ := kept.exists_diagonal large isUnit_one isUnit_one
    obtain ⟨c, d, three, -, ⟨corner, here, gone⟩, across⟩ :=
      kept.exists_diagonal large isUnit_one isUnit_one.neg
    -- The second corner is on neither side of the first diagonal, and so is the cell where it goes.
    have square : a * c + b * d = 0 := by
      apply mul_left_cancel₀ (reach_ne_zero large)
      have other := along corner
      rw [here, gone] at other
      linear_combination other
    obtain ⟨motion, member, determined⟩ := exists_motion_of_diagonals one two three square
    refine ⟨motion, member, fun cell => determined _ _ ?_ ?_⟩
    · linear_combination along cell
    · linear_combination across cell
  · -- At most one cell has nowhere else to go.
    have : Subsingleton (Fin size) := Fin.subsingleton_iff_le_one.mpr small
    exact ⟨quarterTurn^[0], mem_motions.mpr ⟨0, by decide, .inr rfl⟩, fun cell =>
      congrArg way (Subsingleton.elim (move cell) cell)⟩

theorem comp {other : Cell size → Cell size} (kept : IsSymmetry move) (otherKept : IsSymmetry other) :
    IsSymmetry (move ∘ other) :=
  fun one two => (kept (other one) (other two)).trans (otherKept one two)

end IsSymmetry

/-- Where a quarter turn to the right takes a cell. -/
def turnedCell (cell : Cell size) : Cell size := (cell.2, cell.1.rev)

/-- Where mirroring takes a cell. -/
def mirroredCell (cell : Cell size) : Cell size := (cell.1, cell.2.rev)

theorem coe_rev (line : Fin size) : (line.rev.val : ℤ) = size - 1 - line.val := by
  rw [Fin.val_rev]
  omega

theorem way_turnedCell (cell : Cell size) : way (turnedCell cell) = quarterTurn (way cell) := by
  simp only [way, turnedCell, quarterTurn, coe_rev, Prod.mk.injEq]
  omega

theorem way_mirroredCell (cell : Cell size) : way (mirroredCell cell) = reflection (way cell) := by
  simp only [way, mirroredCell, reflection, coe_rev, Prod.mk.injEq, and_true]
  omega

theorem isSymmetry_turnedCell : IsSymmetry (turnedCell : Cell size → Cell size) := by
  intro one two
  simp only [distance, turnedCell, coe_rev]
  ring

theorem isSymmetry_mirroredCell : IsSymmetry (mirroredCell : Cell size → Cell size) := by
  intro one two
  simp only [distance, mirroredCell, coe_rev]
  ring

end Cells

end PuzzleCalendar.Jigsaw
