/-! # Sums of natural numbers

The total of a list is the sum of its members. It is unfolded by its equations on the empty list, on a
first member and on two lists in a row.
-/

namespace PuzzleCalendar.Number

/-- The sum of natural numbers. -/
def total (numbers : List Nat) : Nat :=
  numbers.foldr (· + ·) 0

@[simp] theorem total_nil : total [] = 0 := rfl

@[simp] theorem total_cons (number : Nat) (numbers : List Nat) :
    total (number :: numbers) = number + total numbers := rfl

@[simp] theorem total_append (first second : List Nat) :
    total (first ++ second) = total first + total second := by
  induction first with
  | nil => simp
  | cons number first ih => simp [ih, Nat.add_assoc]

end PuzzleCalendar.Number
