import PuzzleCalendar.Number.Total

/-! # Integers of a fixed width

Some sums and products of the puzzles are held in a word or a signed integer of 32 or 64 bits. Each
function below gives its argument back when the width holds it and nothing otherwise.
-/

namespace PuzzleCalendar.Number

/-- A natural number of at most 32 bits. -/
def word32? (value : Nat) : Option Nat :=
  if value < 4294967296 then some value else none

/-- A natural number of at most 64 bits. -/
def word64? (value : Nat) : Option Nat :=
  if value < 18446744073709551616 then some value else none

/-- The difference of two words, when it is one. -/
def difference? (minuend subtrahend : Nat) : Option Nat :=
  if subtrahend ≤ minuend then some (minuend - subtrahend) else none

/-- An integer that 32 bits with a sign hold. -/
def int32? (value : Int) : Option Int :=
  if -2147483648 ≤ value ∧ value < 2147483648 then some value else none

/-- An integer that 64 bits with a sign hold. -/
def int64? (value : Int) : Option Int :=
  if -9223372036854775808 ≤ value ∧ value < 9223372036854775808 then some value else none

theorem word64?_eq_some_iff {value kept : Nat} :
    word64? value = some kept ↔ value = kept ∧ value < 18446744073709551616 := by
  simp [word64?, and_comm]

theorem word64?_eq_none_iff {value : Nat} : word64? value = none ↔ 18446744073709551616 ≤ value := by
  simp [word64?]

theorem difference?_eq_some_iff {minuend subtrahend rest : Nat} :
    difference? minuend subtrahend = some rest ↔ subtrahend ≤ minuend ∧ minuend - subtrahend = rest := by
  simp [difference?]

theorem difference?_eq_none_iff {minuend subtrahend : Nat} :
    difference? minuend subtrahend = none ↔ minuend < subtrahend := by
  simp [difference?]

theorem int32?_eq_some_iff {value kept : Int} :
    int32? value = some kept ↔ value = kept ∧ -2147483648 ≤ value ∧ value < 2147483648 := by
  simp [int32?, and_comm]

theorem int64?_eq_some_iff {value kept : Int} :
    int64? value = some kept ↔ value = kept ∧ -9223372036854775808 ≤ value ∧ value < 9223372036854775808 := by
  simp [int64?, and_comm]

/-- The sum of words, added from the left, when every sum on the way is a word. -/
def sum64? (values : List Nat) : Option Nat :=
  values.foldlM (fun total value => word64? (total + value)) 0

/-- Every sum on the way is a word when the whole sum is one. -/
theorem sum64?_eq (values : List Nat) : sum64? values = word64? (total values) := by
  have fromAny (start : Nat) (word : start < 18446744073709551616) :
      values.foldlM (fun total value => word64? (total + value)) start = word64? (start + total values) := by
    induction values generalizing start with
    | nil => exact (word64?_eq_some_iff.mpr ⟨rfl, word⟩).symm
    | cons value values ih =>
      rw [List.foldlM_cons, total_cons, ← Nat.add_assoc]
      cases held : word64? (start + value) with
      | none =>
        have large := word64?_eq_none_iff.mp held
        exact (word64?_eq_none_iff.mpr (by omega)).symm
      | some kept =>
        obtain ⟨rfl, fits⟩ := word64?_eq_some_iff.mp held
        exact ih _ fits
  rw [sum64?, fromAny 0 (by decide), Nat.zero_add]

/-- A sum on the way is no word exactly when the whole sum is none. -/
theorem sum64?_eq_none_iff {values : List Nat} :
    sum64? values = none ↔ 18446744073709551616 ≤ total values := by
  rw [sum64?_eq, word64?_eq_none_iff]

/-- The product of words, multiplied from the left, when every product on the way is a word. -/
def product64? (values : List Nat) : Option Nat :=
  values.foldlM (fun total value => word64? (total * value)) 1

end PuzzleCalendar.Number
