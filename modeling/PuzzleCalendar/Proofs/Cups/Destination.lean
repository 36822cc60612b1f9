import Mathlib.Data.List.Basic
import Mathlib.Logic.Function.Iterate
import PuzzleCalendar.Puzzles.Cups

/-! # Where the picked cups go

From the current cup the search steps down label by label, from the first to the greatest one, and stops
at the first label that is not picked up. As long as there are more labels than steps, all labels on the way
are different, so that the search stops after at most as many steps as cups are picked up. Its end is the
greatest remaining label below the current one or, when none remains below, the greatest of all.
-/

namespace PuzzleCalendar.Cups

variable {circle : Circle} {picked rest : List Nat} {label current steps : Nat}

namespace Circle

/-- After some steps down from a label comes the first one that is not picked up. -/
def SearchEnds (circle : Circle) (picked : List Nat) (label steps : Nat) : Prop :=
  circle.below^[steps] label ∉ picked ∧ ∀ earlier < steps, circle.below^[earlier] label ∈ picked

/-- Fewer steps than there are labels lead down, at most once around. -/
theorem iterate_below (low : 1 ≤ label) (high : label ≤ circle.highest) (few : steps < circle.highest) :
    circle.below^[steps] label =
      if steps < label then label - steps else label + circle.highest - steps := by
  induction steps with
  | zero => simp; omega
  | succ steps ih =>
    rw [Function.iterate_succ_apply', ih (by omega), below]
    split_ifs <;> omega

/-- The search ends when the labels on the way are different. -/
theorem exists_searchEnds (apart : ∀ early late, early < late → late ≤ picked.length →
      circle.below^[early] label ≠ circle.below^[late] label) :
    ∃ steps ≤ picked.length, circle.SearchEnds picked label steps ∧
      circle.destination picked label = circle.below^[steps] label := by
  fun_induction destination circle picked label with
  | case1 picked label member shorter ih =>
    have shifted : ∀ early late, early < late → late ≤ (picked.erase label).length →
        circle.below^[early] (circle.below label) ≠ circle.below^[late] (circle.below label) := by
      intro early late before few
      exact apart (early + 1) (late + 1) (by omega) (by omega)
    obtain ⟨steps, few, ⟨stays, passed⟩, found⟩ := ih shifted
    -- The label itself is met at no later step, so that erasing it from the picked ones changes nothing.
    have fresh : circle.below^[steps] (circle.below label) ≠ label :=
      (apart 0 (steps + 1) (by omega) (by omega)).symm
    refine ⟨steps + 1, by omega, ⟨?_, ?_⟩, found⟩
    · intro taken
      exact stays ((List.mem_erase_of_ne fresh).mpr taken)
    · intro earlier before
      cases earlier with
      | zero => exact member
      | succ earlier => exact List.mem_of_mem_erase (passed earlier (by omega))
  | case2 picked label free =>
    exact ⟨0, by omega, ⟨free, by simp⟩, rfl⟩

/-- The search for the place of three cups of five or more ends after at most three steps. -/
theorem destination_searchEnds (low : 1 ≤ current) (high : current ≤ circle.highest)
    (three : picked.length = 3) (enough : 5 ≤ circle.highest) :
    ∃ steps ≤ 3, circle.SearchEnds picked (circle.below current) steps ∧
      circle.destination picked (circle.below current) = circle.below^[steps + 1] current := by
  have apart : ∀ early late, early < late → late ≤ picked.length →
      circle.below^[early] (circle.below current) ≠ circle.below^[late] (circle.below current) := by
    intro early late before few
    rw [← Function.iterate_succ_apply, ← Function.iterate_succ_apply,
      iterate_below low high (by omega), iterate_below low high (by omega)]
    split_ifs <;> omega
  obtain ⟨steps, few, ends, found⟩ := exists_searchEnds apart
  exact ⟨steps, by omega, ends, found⟩

/-- A label below the current one that the search passes is picked up. -/
theorem SearchEnds.mem_of_lt (ends : circle.SearchEnds picked (circle.below current) steps)
    (few : steps < circle.highest) (low : 1 ≤ current) (high : current ≤ circle.highest)
    (less : label < current) (passed : current - label ≤ steps) (positive : 1 ≤ label) :
    label ∈ picked := by
  have taken := ends.2 (current - label - 1) (by omega)
  have reached : circle.below^[current - label] current = label := by
    rw [iterate_below low high (by omega), if_pos (by omega)]
    omega
  rwa [← Function.iterate_succ_apply, Nat.succ_eq_add_one, Nat.sub_add_cancel (by omega), reached]
    at taken

/-- A label that the search passes once around is picked up. -/
theorem SearchEnds.mem_of_around (ends : circle.SearchEnds picked (circle.below current) steps)
    (few : steps < circle.highest) (low : 1 ≤ current) (high : current ≤ circle.highest)
    (passed : current + circle.highest - label ≤ steps) (inside : label ≤ circle.highest) :
    label ∈ picked := by
  have taken := ends.2 (current + circle.highest - label - 1) (by omega)
  have reached : circle.below^[current + circle.highest - label] current = label := by
    rw [iterate_below low high (by omega), if_neg (by omega)]
    omega
  rwa [← Function.iterate_succ_apply, Nat.succ_eq_add_one, Nat.sub_add_cancel (by omega), reached]
    at taken

end Circle

/-- The greatest remaining label below the current one or, when none remains below, the greatest of all. -/
def landing? (current : Nat) (rest : List Nat) : Option Nat :=
  ((rest.filter (· < current)).max?).or rest.max?

section Landing

variable (all : (current :: picked ++ rest).Perm (List.range' 1 circle.highest))

include all

theorem current_range : 1 ≤ current ∧ current ≤ circle.highest := by
  have range := List.mem_range'_1.mp (all.mem_iff.mp List.mem_cons_self)
  omega

/-- The remaining labels are all but the current one and the picked ones. -/
theorem mem_rest_iff :
    label ∈ rest ↔ (1 ≤ label ∧ label ≤ circle.highest) ∧ label ≠ current ∧ label ∉ picked := by
  have listed : label = current ∨ label ∈ picked ∨ label ∈ rest ↔ 1 ≤ label ∧ label ≤ circle.highest := by
    have member := all.mem_iff (a := label)
    simp only [List.cons_append, List.mem_cons, List.mem_append, List.mem_range'_1] at member
    rw [member]
    omega
  have distinct : (current :: picked ++ rest).Nodup := all.nodup_iff.mpr List.nodup_range'
  obtain ⟨_, _, apart⟩ := List.nodup_append.mp distinct
  rw [← listed]
  constructor
  · intro remains
    refine ⟨.inr (.inr remains), fun same => ?_, fun taken => ?_⟩
    · exact apart label (by simp [same]) label remains rfl
    · exact apart label (by simp [taken]) label remains rfl
  · rintro ⟨same | taken | remains, other, free⟩
    · exact absurd same other
    · exact absurd taken free
    · exact remains

variable (ends : circle.SearchEnds picked (circle.below current) steps) (few : steps + 1 < circle.highest)

include ends few

/-- The search ends at a label that remains. -/
theorem end_mem_rest : circle.below^[steps + 1] current ∈ rest := by
  obtain ⟨low, high⟩ := current_range all
  have stays := ends.1
  rw [← Function.iterate_succ_apply] at stays
  refine (mem_rest_iff all).mpr ⟨?_, ?_, stays⟩
  · rw [Circle.iterate_below low high few]
    split_ifs <;> omega
  · rw [Circle.iterate_below low high few]
    split_ifs <;> omega

/-- A search that does not leave the first label behind ends at the greatest remaining label below. -/
theorem max?_lower (down : steps + 1 < current) :
    (rest.filter (· < current)).max? = some (circle.below^[steps + 1] current) := by
  obtain ⟨low, high⟩ := current_range all
  have remains := end_mem_rest all ends few
  rw [Circle.iterate_below low high few, if_pos down] at remains ⊢
  refine List.max?_eq_some_iff.mpr ⟨?_, ?_⟩
  · simp only [List.mem_filter, decide_eq_true_eq]
    exact ⟨remains, by omega⟩
  · intro label listed
    simp only [List.mem_filter, decide_eq_true_eq, mem_rest_iff all] at listed
    obtain ⟨⟨⟨positive, _⟩, _, free⟩, less⟩ := listed
    by_contra above
    exact free (ends.mem_of_lt (by omega) low high less (by omega) positive)

/-- A search that wraps around passes all labels below. -/
theorem lower_eq_nil (around : ¬ steps + 1 < current) : rest.filter (· < current) = [] := by
  obtain ⟨low, high⟩ := current_range all
  refine List.filter_eq_nil_iff.mpr fun label listed less => ?_
  have less : label < current := by simpa using less
  obtain ⟨⟨positive, _⟩, _, free⟩ := (mem_rest_iff all).mp listed
  exact free (ends.mem_of_lt (by omega) low high less (by omega) positive)

/-- A search that wraps around ends at the greatest remaining label. -/
theorem max?_around (around : ¬ steps + 1 < current) :
    rest.max? = some (circle.below^[steps + 1] current) := by
  obtain ⟨low, high⟩ := current_range all
  have remains := end_mem_rest all ends few
  rw [Circle.iterate_below low high few, if_neg around] at remains ⊢
  refine List.max?_eq_some_iff.mpr ⟨remains, fun label listed => ?_⟩
  by_contra above
  obtain ⟨⟨_, inside⟩, _, free⟩ := (mem_rest_iff all).mp listed
  exact free (ends.mem_of_around (by omega) low high (by omega) inside)

/-- The search ends where the picked cups land. -/
theorem landing?_eq : landing? current rest = some (circle.below^[steps + 1] current) := by
  by_cases down : steps + 1 < current
  · rw [landing?, max?_lower all ends few down, Option.some_or]
  · rw [landing?, lower_eq_nil all ends few down, List.max?_nil, Option.none_or,
      max?_around all ends few down]

end Landing

end PuzzleCalendar.Cups
