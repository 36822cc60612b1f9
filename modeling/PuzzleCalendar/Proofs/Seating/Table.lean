import Mathlib.Data.List.Basic
import Mathlib.Tactic.Ring
import PuzzleCalendar.Puzzles.Seating
import Std.Data.HashMap

/-! # The table of a plan

All rows of a plan are as long as the first one, so every seat has its row and column in the table and no
look around leaves it. The table then holds what a map from places to numbers holds, and the chart can be
described with that map.
-/

namespace PuzzleCalendar.Seating

/-- The number of the seat at each place that has one. -/
def numbering (places : List Place) : Std.HashMap Place Nat :=
  Std.HashMap.ofList places.zipIdx

/-- The first seats in all directions, as far as `reach` steps away. -/
def around (numbers : Std.HashMap Place Nat) (reach : Nat) (place : Place) : List Nat :=
  directions.filterMap fun direction =>
    (List.range reach).findSome? fun distance => numbers[place.ahead direction (distance + 1)]?

/-- The chart of a plan. -/
def SeatChart.ofRows (rows : List (List (Option Bool))) : SeatChart :=
  let places := (seats rows).map Prod.fst
  let numbers := numbering places
  let reach := max rows.length ((rows.head?.map List.length).getD 0)
  { initial := ((seats rows).map Prod.snd).toArray
    adjacent := (places.map (around numbers 1)).toArray
    visible := (places.map (around numbers reach)).toArray }

@[simp] theorem Place.ahead_zero (place direction : Place) : place.ahead direction 0 = place := by
  simp [ahead]

@[simp] theorem Place.ahead_ahead (place direction : Place) (near far : Nat) :
    (place.ahead direction near).ahead direction far = place.ahead direction (near + far) := by
  unfold ahead
  ext <;> push_cast <;> ring

theorem numbering_eq_none {places : List Place} {place : Place} (missing : place ∉ places) :
    (numbering places)[place]? = none := by
  apply Std.HashMap.getElem?_ofList_of_contains_eq_false
  rw [List.zipIdx_map_fst]
  simpa using missing

namespace SeatTable

variable {table : SeatTable} {row column seat : Nat} {old : Option Nat}

theorem at?_eq_some_iff : table.at? row column = some old ↔
    ∃ (inside : row < table.size) (there : column < table[row].size), table[row][column] = old := by
  rw [at?, Option.bind_eq_bind, Option.bind_eq_some_iff]
  simp only [Array.getElem?_eq_some_iff]
  constructor
  · rintro ⟨_, ⟨inside, rfl⟩, there, same⟩
    exact ⟨inside, there, same⟩
  · rintro ⟨inside, there, same⟩
    exact ⟨_, ⟨inside, rfl⟩, there, same⟩

/-- Where something stands, a seat can be written, and nothing else changes. -/
theorem exists_write? (held : table.at? row column = some old) (seat : Nat) :
    ∃ next, table.write? row column seat = some next ∧ ∀ r c, next.at? r c =
      if r = row ∧ c = column then some (some seat) else table.at? r c := by
  obtain ⟨inside, there, -⟩ := at?_eq_some_iff.mp held
  refine ⟨_, by rw [write?, dif_pos inside, dif_pos there], fun r c => ?_⟩
  simp only [at?, Option.bind_eq_bind, Array.getElem?_set]
  by_cases same : row = r
  · subst same
    simp only [if_pos, Option.bind_some, Array.getElem?_set, true_and]
    by_cases equal : column = c
    · subst equal
      simp
    · simp [equal, Ne.symm equal, inside]
  · simp [same, Ne.symm same]

end SeatTable

namespace Extent

variable {extent : Extent} {table : SeatTable} {numbers : Std.HashMap Place Nat} {place : Place}

/-- The table has at each place of the plan what a map has. -/
def Shows (extent : Extent) (table : SeatTable) (numbers : Std.HashMap Place Nat) : Prop :=
  ∀ place, extent.Holds place → table.at? place.1.toNat place.2.toNat = some numbers[place]?

theorem Holds.toNat_inj {one two : Place} (first : extent.Holds one) (second : extent.Holds two) :
    (one.1.toNat = two.1.toNat ∧ one.2.toNat = two.2.toNat) ↔ one = two := by
  obtain ⟨_, _, _, _⟩ := first
  obtain ⟨_, _, _, _⟩ := second
  rw [Prod.ext_iff]
  omega

theorem shows_blank : extent.Shows (Array.replicate extent.height (Array.replicate extent.width none)) ∅ := by
  rintro place ⟨_, _, _, _⟩
  rw [SeatTable.at?_eq_some_iff]
  refine ⟨by simp; omega, by simp; omega, by simp⟩

theorem Shows.write (shows : extent.Shows table numbers) (holds : extent.Holds place) (seat : Nat) :
    ∃ next, table.write? place.1.toNat place.2.toNat seat = some next ∧
      extent.Shows next (numbers.insert place seat) := by
  obtain ⟨next, written, after⟩ := SeatTable.exists_write? (shows place holds) seat
  refine ⟨next, written, fun other inside => ?_⟩
  rw [after, shows other inside, Std.HashMap.getElem?_insert]
  by_cases same : place = other
  · subst same
    simp
  · have apart := (Holds.toNat_inj inside holds).not.mpr (Ne.symm same)
    simp [same, apart]

theorem Shows.foldlM {list : List (Place × Nat)} (shows : extent.Shows table numbers)
    (holds : ∀ entry ∈ list, extent.Holds entry.1) :
    ∃ next, list.foldlM (fun table (place, seat) =>
        table.write? place.1.toNat place.2.toNat seat) table = some next ∧
      extent.Shows next (numbers.insertMany list) := by
  induction list generalizing table numbers with
  | nil => exact ⟨table, rfl, shows⟩
  | cons entry list ih =>
    obtain ⟨place, seat⟩ := entry
    obtain ⟨inside, holds⟩ := List.forall_mem_cons.mp holds
    have inside : extent.Holds place := inside
    obtain ⟨next, written, shows⟩ := shows.write inside seat
    obtain ⟨last, folded, shows⟩ := ih shows holds
    refine ⟨last, ?_, ?_⟩
    · simp only [List.foldlM_cons, written]
      exact folded
    · rwa [Std.HashMap.insertMany_cons]

/-- The seats of a plan are numbered as in the map. -/
theorem exists_number? {places : List Place} (holds : ∀ place ∈ places, extent.Holds place) :
    ∃ table, extent.number? places = some table ∧ extent.Shows table (numbering places) := by
  have entries : ∀ entry ∈ places.zipIdx, extent.Holds entry.1 := by
    intro entry listed
    exact holds entry.1 (List.fst_mem_of_mem_zipIdx listed)
  obtain ⟨table, numbered, shows⟩ := shows_blank.foldlM entries
  exact ⟨table, numbered, shows⟩

/-- A look at any place finds what the map has. -/
theorem beside?_eq_some (shows : extent.Shows table numbers)
    (outside : ∀ place, ¬ extent.Holds place → numbers[place]? = none) (place direction : Place) :
    extent.beside? table place direction = some numbers[place.ahead direction 1]? := by
  by_cases holds : extent.Holds (place.ahead direction 1)
  · rw [beside?, step?, if_pos holds]
    exact shows _ holds
  · rw [beside?, step?, if_neg holds, outside _ holds]

/-- Beyond the border of a plan a direction does not come back to it. -/
theorem not_holds_ahead {direction : Place} (known : direction ∈ directions) (holds : extent.Holds place)
    {near far : Nat} (outer : ¬ extent.Holds (place.ahead direction near)) (farther : near ≤ far) :
    ¬ extent.Holds (place.ahead direction far) := by
  simp only [directions, List.mem_cons, List.not_mem_nil, or_false] at known
  unfold Holds Place.ahead at *
  rcases known with rfl | rfl | rfl | rfl | rfl | rfl | rfl | rfl <;> simp at * <;> omega

/-- A plan is not longer in any direction than it is high or wide. -/
theorem not_holds_ahead_max {direction : Place} (known : direction ∈ directions)
    (holds : extent.Holds place) :
    ¬ extent.Holds (place.ahead direction (max extent.height extent.width)) := by
  simp only [directions, List.mem_cons, List.not_mem_nil, or_false] at known
  unfold Holds Place.ahead at *
  rcases known with rfl | rfl | rfl | rfl | rfl | rfl | rfl | rfl <;> simp at * <;> omega

/-- A look that is given the steps to the border finds the first seat. -/
theorem firstSeat?_eq_some (shows : extent.Shows table numbers)
    (outside : ∀ place, ¬ extent.Holds place → numbers[place]? = none) {direction : Place}
    (known : direction ∈ directions) (holds : extent.Holds place) {steps : Nat}
    (outer : ¬ extent.Holds (place.ahead direction steps)) :
    extent.firstSeat? table direction steps place =
      some ((List.range steps).findSome? fun distance => numbers[place.ahead direction (distance + 1)]?) := by
  induction steps generalizing place with
  | zero =>
    rw [Place.ahead_zero] at outer
    contradiction
  | succ steps ih =>
    rw [List.range_succ_eq_map, List.findSome?_cons, List.findSome?_map]
    by_cases inside : extent.Holds (place.ahead direction 1)
    · have next := ih inside (by rwa [Place.ahead_ahead, Nat.add_comm])
      simp only [Place.ahead_ahead, Nat.add_comm 1] at next
      rw [firstSeat?, step?, if_pos inside]
      simp only [shows _ inside, Option.bind_eq_bind, Option.bind_some]
      cases numbers[place.ahead direction 1]? with
      | none => exact next
      | some seat => rfl
    · have clear (distance : Nat) : numbers[place.ahead direction (distance + 1)]? = none :=
        outside _ (not_holds_ahead known holds inside (Nat.le_add_left 1 distance))
      rw [firstSeat?, step?, if_neg inside, clear]
      apply congrArg some
      exact (List.findSome?_eq_none_iff.mpr fun distance _ => clear (distance + 1)).symm

/-- The seats next to a place are the first ones within a step. -/
theorem adjacent?_eq_some (shows : extent.Shows table numbers)
    (outside : ∀ place, ¬ extent.Holds place → numbers[place]? = none) (place : Place) :
    extent.adjacent? table place = some (around numbers 1 place) := by
  have looks := mapM_eq_some_map fun direction (_ : direction ∈ directions) =>
    beside?_eq_some shows outside place direction
  have single (direction : Place) : ((List.range 1).findSome? fun distance =>
      numbers[place.ahead direction (distance + 1)]?) = numbers[place.ahead direction 1]? := by
    exact List.findSome?_singleton
  simp only [adjacent?, around?, looks, around, single]
  exact congrArg some (List.filterMap_map ..)

/-- The looks from a place of the plan end at a seat or at the border. -/
theorem visible?_eq_some (shows : extent.Shows table numbers)
    (outside : ∀ place, ¬ extent.Holds place → numbers[place]? = none) (holds : extent.Holds place) :
    extent.visible? table place = some (around numbers (max extent.height extent.width) place) := by
  have looks := mapM_eq_some_map fun direction (known : direction ∈ directions) =>
    firstSeat?_eq_some shows outside known holds (not_holds_ahead_max known holds)
  rw [visible?, around?, looks]
  exact congrArg some (List.filterMap_map ..)

end Extent

/-- The seats of a plan lie in it. -/
theorem holds_of_mem_seats {rows : List (List (Option Bool))}
    (rectangular : ∀ row ∈ rows, row.length = (Extent.ofRows rows).width) {seat : Place × Bool}
    (listed : seat ∈ seats rows) : (Extent.ofRows rows).Holds seat.1 := by
  obtain ⟨⟨row, r⟩, inRows, inRow⟩ := List.mem_flatMap.mp listed
  obtain ⟨⟨cell, c⟩, inCells, taken⟩ := List.mem_filterMap.mp inRow
  obtain ⟨occupied, -, rfl⟩ := Option.map_eq_some_iff.mp taken
  obtain ⟨above, same⟩ := List.getElem?_eq_some_iff.mp (List.mk_mem_zipIdx_iff_getElem?.mp inRows)
  obtain ⟨left, -⟩ := List.getElem?_eq_some_iff.mp (List.mk_mem_zipIdx_iff_getElem?.mp inCells)
  rw [rectangular row (same ▸ List.getElem_mem above)] at left
  exact ⟨Int.natCast_nonneg r, Int.ofNat_lt.mpr above, Int.natCast_nonneg c, Int.ofNat_lt.mpr left⟩

/-- On a rectangle the table gives the chart. -/
theorem SeatChart.ofRows?_eq_some {rows : List (List (Option Bool))}
    (rectangular : ∀ row ∈ rows, row.length = (Extent.ofRows rows).width) :
    SeatChart.ofRows? rows = some (SeatChart.ofRows rows) := by
  have holds : ∀ place ∈ (seats rows).map Prod.fst, (Extent.ofRows rows).Holds place := by
    rintro place listed
    obtain ⟨seat, taken, rfl⟩ := List.mem_map.mp listed
    exact holds_of_mem_seats rectangular taken
  obtain ⟨table, numbered, shows⟩ := Extent.exists_number? holds
  have outside (place : Place) (outer : ¬ (Extent.ofRows rows).Holds place) :
      (numbering ((seats rows).map Prod.fst))[place]? = none :=
    numbering_eq_none fun listed => outer (holds place listed)
  have adjacent := mapM_eq_some_map fun place (_ : place ∈ (seats rows).map Prod.fst) =>
    Extent.adjacent?_eq_some shows outside place
  have visible := mapM_eq_some_map fun place listed =>
    Extent.visible?_eq_some shows outside (holds place listed)
  simp only [ofRows?, numbered, adjacent, visible, Option.bind_eq_bind, Option.bind_some]
  rfl

/-- Every plan that can be read is a rectangle. -/
theorem parse_eq (text : Text) :
    parse text = Outcome.ofExcept ((Input.cellGrid "seat" cell? text).map SeatChart.ofRows) := by
  rw [parse]
  cases drawn : Input.cellGrid "seat" cell? text with
  | error reason => rfl
  | ok rows =>
    have chart := SeatChart.ofRows?_eq_some (Input.rectangular_of_cellGrid drawn)
    exact congrArg Outcome.orFault chart

end PuzzleCalendar.Seating
