/-! # Sets of characters given by ranges of code points

A property of characters is a list of closed ranges of code points, in rising order.
-/

namespace PuzzleCalendar.Text

/-- Closed ranges of code points, in rising order. -/
abbrev CharRanges := List (Nat × Nat)

/-- The code point of `char` lies in one of the ranges. -/
def CharRanges.contains (ranges : CharRanges) (char : Char) : Bool :=
  ranges.any fun (first, last) => first ≤ char.toNat && char.toNat ≤ last

theorem CharRanges.contains_iff {ranges : CharRanges} {char : Char} :
    ranges.contains char = true ↔
      ∃ range ∈ ranges, range.1 ≤ char.toNat ∧ char.toNat ≤ range.2 := by
  simp [contains]

end PuzzleCalendar.Text
