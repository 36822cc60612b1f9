import Mathlib.Algebra.Order.BigOperators.Group.List
import Mathlib.Algebra.Order.Ring.Nat
import PuzzleCalendar.Number.Width
import PuzzleCalendar.Outcome

/-! # Sums of words

A sum that is added up in words is the sum of the list when that is a word, and nothing otherwise. It makes
no difference whether a sum on the way or a summand is the first number that no word holds.
-/

namespace PuzzleCalendar.Number

theorem total_eq_sum (numbers : List Nat) : total numbers = numbers.sum := rfl

theorem sum64?_eq_word64?_sum (values : List Nat) : sum64? values = word64? values.sum :=
  sum64?_eq values

/-- Adding up words where some may be missing gives their sum when that is a word. -/
theorem bind_mapM_word64? (values : List Nat) :
    ((values.map word64?).mapM id >>= sum64?) = word64? values.sum := by
  by_cases words : ∀ value ∈ values, value < 18446744073709551616
  · have kept : values.map word64? = values.map some :=
      List.map_congr_left fun value member => if_pos (words value member)
    rw [mapM_id_eq_some_iff.mpr kept]
    exact sum64?_eq_word64?_sum values
  · simp only [not_forall, Nat.not_lt] at words
    obtain ⟨value, member, large⟩ := words
    have missing : (values.map word64?).mapM id = none :=
      mapM_eq_none_of_mem (List.mem_map_of_mem member) (word64?_eq_none_iff.mpr large)
    rw [missing, word64?_eq_none_iff.mpr (large.trans (List.le_sum_of_mem member))]
    rfl

end PuzzleCalendar.Number
