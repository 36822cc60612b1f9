import PuzzleCalendar.Proofs.Seating.Chart

/-! # Seatings that settle

The adjacent seats of a plan settle unless they come to blink. A plan on which they blink has a group
of seats each of which has four others of the group next to it.
-/

namespace PuzzleCalendar.Seating

/-- A text that can be read draws a plan, and its chart is the chart of the plan. -/
theorem exists_rows_of_parse {text : Text} {chart : SeatChart} (parsed : parse text = .ok chart) :
    ∃ rows, Input.cellGrid "seat" cell? text = .ok rows ∧ chart = SeatChart.ofRows rows := by
  rw [parse_eq, Outcome.ofExcept_eq_ok_iff] at parsed
  cases drawn : Input.cellGrid "seat" cell? text with
  | error reason => simp [drawn, Except.map] at parsed
  | ok rows =>
    rw [drawn] at parsed
    exact ⟨rows, rfl, (Except.ok.inj parsed).symm⟩

/-- Of a plan that can be read, the adjacent seats fail to settle exactly when they come to blink, and
that takes a group of seats with four others of the group next to each. -/
theorem settle?_adjacent_eq_none_iff {text : Text} {chart : SeatChart}
    (parsed : parse text = .ok chart) :
    (settle? chart.adjacent 4 chart.initial = none ↔ ∀ rounds,
      ¬ Settled chart.adjacent 4 (occupiedAfter chart.adjacent 4 chart.initial rounds)) ∧
    (settle? chart.adjacent 4 chart.initial = none ↔ ∃ rounds,
      Blinks chart.adjacent 4 (occupiedAfter chart.adjacent 4 chart.initial rounds)) ∧
    (settle? chart.adjacent 4 chart.initial = none → ∃ group : Finset Nat, group.Nonempty ∧
      (∀ seat ∈ group, seat < chart.initial.size) ∧ Crowd chart.adjacent 4 group) := by
  obtain ⟨rows, _, rfl⟩ := exists_rows_of_parse parsed
  have blinking : settle? (SeatChart.ofRows rows).adjacent 4 (SeatChart.ofRows rows).initial = none ↔ _ :=
    settle?_eq_none_iff_blinks (mutual_adjacent rows) (fits_adjacent rows)
  refine ⟨settle?_eq_none_iff (fits_adjacent rows), blinking, fun never => ?_⟩
  obtain ⟨rounds, blinks⟩ := blinking.mp never
  simpa using exists_crowd_of_blinks blinks

/-- Thirty-two empty seats, each next to at least four others. -/
def octagon : Text :=
  ".LLLL.\nLLLLLL\nLLLLLL\nLLLLLL\nLLLLLL\n.LLLL.\n".toList

private def octagonRows : List (List (Option Bool)) :=
  let edge := none :: List.replicate 4 (some false) ++ [none]
  edge :: List.replicate 4 (List.replicate 6 (some false)) ++ [edge]

private theorem parse_octagon : parse octagon = .ok (SeatChart.ofRows octagonRows) := by
  rw [parse_eq]
  rfl

theorem settle?_adjacent_octagon : ∃ chart, parse octagon = .ok chart ∧
    (settle? chart.adjacent 4 chart.initial = none ↔ ∀ rounds,
      ¬ Settled chart.adjacent 4 (occupiedAfter chart.adjacent 4 chart.initial rounds)) ∧
    (settle? chart.adjacent 4 chart.initial = none ↔ ∃ rounds,
      Blinks chart.adjacent 4 (occupiedAfter chart.adjacent 4 chart.initial rounds)) ∧
    (settle? chart.adjacent 4 chart.initial = none → ∃ group : Finset Nat, group.Nonempty ∧
      (∀ seat ∈ group, seat < chart.initial.size) ∧ Crowd chart.adjacent 4 group) :=
  ⟨_, parse_octagon, settle?_adjacent_eq_none_iff parse_octagon⟩

/-- All seats of the octagon are taken at once and left at once. -/
theorem not_settled_octagon : ∃ chart, parse octagon = .ok chart ∧ ∀ rounds,
    ¬ Settled chart.adjacent 4 (occupiedAfter chart.adjacent 4 chart.initial rounds) := by
  have blinks : Blinks (SeatChart.ofRows octagonRows).adjacent 4
      (occupiedAfter (SeatChart.ofRows octagonRows).adjacent 4
        (SeatChart.ofRows octagonRows).initial 0) := by
    rw [occupiedAfter_zero, adjacent_ofRows, neighboursOf_eq (nodup_places octagonRows)]
    decide +kernel
  exact ⟨_, parse_octagon, not_settled_of_blinks blinks⟩

end PuzzleCalendar.Seating
