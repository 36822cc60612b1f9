import PuzzleCalendar.Proofs.Seating.Settling

/-! # Who is around a seat

The seats of a plan are numbered row by row. Around each of them are those at the touching places, or the
first one in each of the eight directions: no two directions lead to the same place, none leads back, and
what is in sight is met before the direction leaves the plan.
-/

namespace PuzzleCalendar.Seating

/-- A seat stands at a place of a plan, occupied or not. -/
def SeatAt (rows : List (List (Option Bool))) (place : Place) (occupied : Bool) : Prop :=
  ∃ (row column : Nat) (cells : List (Option Bool)), place = (↑row, ↑column) ∧
    rows[row]? = some cells ∧ cells[column]? = some (some occupied)

/-- A plan has a seat at a place. -/
def IsSeat (rows : List (List (Option Bool))) (place : Place) : Prop :=
  ∃ occupied, SeatAt rows place occupied

/-- The place is one of the eight around another one. -/
def Place.Touches (one two : Place) : Prop :=
  one ≠ two ∧ |two.1 - one.1| ≤ 1 ∧ |two.2 - one.2| ≤ 1

/-- The place has the first seat that is met from another one in some direction. -/
def InSight (rows : List (List (Option Bool))) (one two : Place) : Prop :=
  ∃ direction ∈ directions, ∃ distance, two = one.ahead direction (distance + 1) ∧ IsSeat rows two ∧
    ∀ nearer < distance, ¬ IsSeat rows (one.ahead direction (nearer + 1))

theorem mem_seats_iff {rows : List (List (Option Bool))} {place : Place} {occupied : Bool} :
    (place, occupied) ∈ seats rows ↔ SeatAt rows place occupied := by
  simp only [seats, List.mem_flatMap, List.mem_filterMap, Option.map_eq_some_iff, Prod.exists,
    List.mk_mem_zipIdx_iff_getElem?, Prod.mk.injEq]
  constructor
  · rintro ⟨cells, row, above, cell, column, left, taken, rfl, rfl, rfl⟩
    exact ⟨row, column, cells, rfl, above, left⟩
  · rintro ⟨row, column, cells, rfl, above, left⟩
    exact ⟨cells, row, above, some occupied, column, left, occupied, rfl, rfl, rfl⟩

theorem SeatAt.unique {rows : List (List (Option Bool))} {place : Place} {one two : Bool}
    (first : SeatAt rows place one) (second : SeatAt rows place two) : one = two := by
  obtain ⟨row, column, cells, rfl, above, left⟩ := first
  obtain ⟨_, _, _, same, there, found⟩ := second
  obtain ⟨rfl, rfl⟩ : _ = row ∧ _ = column := by simpa [eq_comm] using same
  obtain rfl := Option.some_inj.mp (above.symm.trans there)
  exact Option.some_inj.mp (Option.some_inj.mp (left.symm.trans found))

theorem mem_places_iff {rows : List (List (Option Bool))} {place : Place} :
    place ∈ (seats rows).map Prod.fst ↔ IsSeat rows place := by
  simp only [List.mem_map, Prod.exists, exists_and_right, exists_eq_right, mem_seats_iff]
  rfl

section Directions

variable {place direction other : Place} {near far : Nat}

/-- Where a direction leads tells which direction it is. -/
theorem sign_ahead (known : direction ∈ directions) (place : Place) (distance : Nat) :
    (((place.ahead direction (distance + 1)).1 - place.1).sign,
      ((place.ahead direction (distance + 1)).2 - place.2).sign) = direction := by
  have units : ∀ direction ∈ directions, (direction.1.sign, direction.2.sign) = direction := by decide
  have positive : ((distance + 1 : Nat) : Int).sign = 1 := Int.sign_eq_one_of_pos (by omega)
  simp only [Place.ahead, add_sub_cancel_left, Int.sign_mul, positive, Int.mul_one]
  exact units direction known

theorem eq_of_ahead_eq (known : direction ∈ directions) (also : other ∈ directions)
    (same : place.ahead direction (near + 1) = place.ahead other (far + 1)) : direction = other := by
  rw [← sign_ahead known place near, same, sign_ahead also]

/-- No direction leads back. -/
theorem ahead_ne (known : direction ∈ directions) : place.ahead direction (near + 1) ≠ place := by
  intro back
  have still := sign_ahead known place near
  rw [back, Int.sub_self, Int.sub_self] at still
  subst still
  revert known
  decide

/-- One step in each direction leads to the places around a place. -/
theorem Place.touches_iff : place.Touches other ↔ ∃ direction ∈ directions, other = place.ahead direction 1 := by
  constructor
  · rintro ⟨apart, rows, columns⟩
    rw [abs_le] at rows columns
    have unit {difference : Int} (bounds : -1 ≤ difference ∧ difference ≤ 1) :
        difference ∈ [-1, 0, 1] := by
      simp only [List.mem_cons, List.not_mem_nil, or_false]
      omega
    have known : ∀ row ∈ [-1, 0, 1], ∀ column ∈ [-1, 0, 1],
        ((row, column) : Place) ≠ (0, 0) → (row, column) ∈ directions := by decide
    refine ⟨(other.1 - place.1, other.2 - place.2),
      known _ (unit rows) _ (unit columns) fun still => apart ?_, ?_⟩
    · obtain ⟨row, column⟩ := Prod.mk.inj still
      exact Prod.ext (by omega) (by omega)
    · simp [ahead]
  · rintro ⟨direction, known, rfl⟩
    have short : ∀ direction ∈ directions, |direction.1| ≤ 1 ∧ |direction.2| ≤ 1 := by decide
    refine ⟨(ahead_ne known).symm, ?_⟩
    simpa [ahead] using short direction known

end Directions

section Around

variable {places : List Place} {place : Place} {reach seat other : Nat}

theorem numbering_eq_none_iff (distinct : places.Nodup) :
    (numbering places)[place]? = none ↔ place ∉ places := by
  refine ⟨fun missing listed => ?_, numbering_eq_none⟩
  obtain ⟨seat, there⟩ := List.mem_iff_getElem?.mp listed
  rw [(numbering_eq_some_iff distinct).mpr there] at missing
  contradiction

/-- Around a place are the first seats in all directions within reach. -/
theorem mem_around_iff (distinct : places.Nodup) : other ∈ around (numbering places) reach place ↔
    ∃ direction ∈ directions, ∃ distance < reach,
      places[other]? = some (place.ahead direction (distance + 1)) ∧
        ∀ nearer < distance, place.ahead direction (nearer + 1) ∉ places := by
  have looked (direction : Place) : sighted (numbering places) reach place direction = some other ↔ _ :=
    sighted_eq_some_iff
  simp only [numbering_eq_some_iff distinct, numbering_eq_none_iff distinct] at looked
  simp only [← looked]
  exact List.mem_filterMap

/-- No seat is met in two directions. -/
theorem nodup_around (distinct : places.Nodup) (reach : Nat) (place : Place) :
    (around (numbering places) reach place).Nodup := by
  have seen {direction : Place} {seat : Nat}
      (found : sighted (numbering places) reach place direction = some seat) :
      ∃ distance, places[seat]? = some (place.ahead direction (distance + 1)) := by
    obtain ⟨distance, _, there, _⟩ := sighted_eq_some_iff.mp found
    exact ⟨distance, (numbering_eq_some_iff distinct).mp there⟩
  have different : directions.Nodup := by decide
  refine List.pairwise_filterMap.mpr (different.imp_of_mem ?_)
  rintro direction other known also apart seat isSeat _ isOther rfl
  obtain ⟨near, here⟩ := seen isSeat
  obtain ⟨far, there⟩ := seen isOther
  exact apart (eq_of_ahead_eq known also (Option.some_inj.mp (here.symm.trans there)))

end Around

/-- Around each seat are the seats at related places, all of them once and not the seat itself. -/
structure Surrounds (neighbours : Array (List Nat)) (places : List Place)
    (Related : Place → Place → Prop) : Prop where
  size : neighbours.size = places.length
  mem_iff (seat other : Nat) : other ∈ neighbours.getD seat [] ↔
    ∃ here there, places[seat]? = some here ∧ places[other]? = some there ∧ Related here there
  nodup (seat : Nat) : (neighbours.getD seat []).Nodup
  apart (seat : Nat) : seat ∉ neighbours.getD seat []
  inside (seat other : Nat) : other ∈ neighbours.getD seat [] → other < places.length
  mutually (seat other : Nat) : other ∈ neighbours.getD seat [] ↔ seat ∈ neighbours.getD other []

section Surrounds

variable {places : List Place} {reach : Nat}

/-- Within some reach the seats around the places are those that a relation says. -/
theorem surrounds_neighboursOf (distinct : places.Nodup) {Related : Place → Place → Prop}
    (related : ∀ here ∈ places, ∀ there ∈ places, Related here there ↔
      ∃ direction ∈ directions, ∃ distance < reach, there = here.ahead direction (distance + 1) ∧
        ∀ nearer < distance, here.ahead direction (nearer + 1) ∉ places) :
    Surrounds (neighboursOf places reach) places Related := by
  have mem_iff (seat other : Nat) : other ∈ (neighboursOf places reach).getD seat [] ↔
      ∃ here there, places[seat]? = some here ∧ places[other]? = some there ∧ Related here there := by
    rw [getD_neighboursOf]
    cases here : places[seat]? with
    | none => simp
    | some place =>
      rw [Option.elim_some, mem_around_iff distinct]
      constructor
      · rintro ⟨direction, known, distance, near, there, clear⟩
        refine ⟨place, _, rfl, there, ?_⟩
        rw [related place (List.mem_of_getElem? here) _ (List.mem_of_getElem? there)]
        exact ⟨direction, known, distance, near, rfl, clear⟩
      · rintro ⟨_, there, ⟨⟩, listed, isRelated⟩
        obtain ⟨direction, known, distance, near, rfl, clear⟩ :=
          (related place (List.mem_of_getElem? here) there (List.mem_of_getElem? listed)).mp isRelated
        exact ⟨direction, known, distance, near, listed, clear⟩
  refine ⟨(fits_neighboursOf distinct reach).size, mem_iff, fun seat => ?_, fun seat around => ?_,
    fun seat other around => ?_, fun seat other => ?_⟩
  · rw [getD_neighboursOf]
    cases places[seat]? with
    | none => exact List.nodup_nil
    | some place => exact nodup_around distinct reach place
  · obtain ⟨here, there, isHere, isThere, isRelated⟩ := (mem_iff seat seat).mp around
    obtain rfl := Option.some_inj.mp (isHere.symm.trans isThere)
    have listed := List.mem_of_getElem? isHere
    obtain ⟨direction, known, distance, _, back, _⟩ := (related here listed here listed).mp isRelated
    exact ahead_ne known back.symm
  · obtain ⟨_, there, _, isThere, _⟩ := (mem_iff seat other).mp around
    exact (List.getElem?_eq_some_iff.mp isThere).1
  · rw [← List.count_pos_iff, ← List.count_pos_iff, mutual_neighboursOf distinct reach]

end Surrounds

section Plan

variable {rows : List (List (Option Bool))}

/-- The adjacent seats of a chart are those at the touching places. -/
theorem surrounds_adjacent (rows : List (List (Option Bool))) :
    Surrounds (SeatChart.ofRows rows).adjacent ((seats rows).map Prod.fst) Place.Touches := by
  rw [adjacent_ofRows]
  refine surrounds_neighboursOf (nodup_places rows) fun here _ there _ => ?_
  rw [Place.touches_iff]
  constructor
  · rintro ⟨direction, known, beside⟩
    exact ⟨direction, known, 0, Nat.one_pos, beside, fun _ nearer => absurd nearer (Nat.not_lt_zero _)⟩
  · rintro ⟨direction, known, distance, near, beside, _⟩
    obtain rfl := Nat.lt_one_iff.mp near
    exact ⟨direction, known, beside⟩

/-- The visible seats of a chart are the first ones in all directions: the plan is not longer than the
view. -/
theorem surrounds_visible (rectangular : ∀ row ∈ rows, row.length = (Extent.ofRows rows).width) :
    Surrounds (SeatChart.ofRows rows).visible ((seats rows).map Prod.fst) (InSight rows) := by
  have holds {place : Place} (listed : place ∈ (seats rows).map Prod.fst) :
      (Extent.ofRows rows).Holds place := by
    obtain ⟨seat, taken, rfl⟩ := List.mem_map.mp listed
    exact holds_of_mem_seats rectangular taken
  rw [visible_ofRows]
  refine surrounds_neighboursOf (nodup_places rows) fun here isHere there isThere => ?_
  simp only [mem_places_iff]
  constructor
  · rintro ⟨direction, known, distance, rfl, _, clear⟩
    refine ⟨direction, known, distance, ?_, rfl, clear⟩
    by_contra far
    have outer := Extent.not_holds_ahead_max known (holds isHere)
    have beyond := Nat.le_succ_of_le (Nat.not_lt.mp far)
    exact Extent.not_holds_ahead known (holds isHere) outer beyond (holds isThere)
  · rintro ⟨direction, known, distance, _, rfl, clear⟩
    exact ⟨direction, known, distance, rfl, mem_places_iff.mp isThere, clear⟩

/-- Whoever touches a seat is in sight from it. -/
theorem Place.Touches.inSight {here there : Place} (touches : here.Touches there)
    (isSeat : IsSeat rows there) : InSight rows here there := by
  obtain ⟨direction, known, rfl⟩ := Place.touches_iff.mp touches
  exact ⟨direction, known, 0, rfl, isSeat, fun _ nearer => absurd nearer (Nat.not_lt_zero _)⟩

end Plan

/-- A chart shows a plan whose seats, row by row, are at some places. -/
structure SeatChart.Shows (chart : SeatChart) (rows : List (List (Option Bool))) (places : List Place) :
    Prop where
  row_by_row : places.Pairwise Place.Before
  mem_iff (place : Place) : place ∈ places ↔ IsSeat rows place
  size_initial : chart.initial.size = places.length
  initial (seat : Nat) (place : Place) : places[seat]? = some place →
    ∀ occupied, chart.initial[seat]? = some occupied ↔ SeatAt rows place occupied
  adjacent : Surrounds chart.adjacent places Place.Touches
  visible : Surrounds chart.visible places (InSight rows)
  subset (seat : Nat) : chart.adjacent.getD seat [] ⊆ chart.visible.getD seat []

theorem SeatChart.shows_ofRows {rows : List (List (Option Bool))}
    (rectangular : ∀ row ∈ rows, row.length = (Extent.ofRows rows).width) :
    (SeatChart.ofRows rows).Shows rows ((seats rows).map Prod.fst) where
  row_by_row := List.pairwise_map.mpr (seats_pairwise rows)
  mem_iff _ := mem_places_iff
  size_initial := size_initial_ofRows rows
  initial := by
    intro seat place there occupied
    rw [List.getElem?_map, Option.map_eq_some_iff] at there
    obtain ⟨⟨place, taken⟩, listed, rfl⟩ := there
    have shown := mem_seats_iff.mp (List.mem_of_getElem? listed)
    have known : (SeatChart.ofRows rows).initial[seat]? = some taken := by
      simp [ofRows, listed]
    rw [known, Option.some_inj]
    exact ⟨fun same => same ▸ shown, shown.unique⟩
  adjacent := surrounds_adjacent rows
  visible := surrounds_visible rectangular
  subset := by
    intro seat other beside
    obtain ⟨here, there, isHere, isThere, touches⟩ := ((surrounds_adjacent rows).mem_iff seat other).mp beside
    refine ((surrounds_visible rectangular).mem_iff seat other).mpr ⟨here, there, isHere, isThere, ?_⟩
    exact touches.inSight (mem_places_iff.mp (List.mem_of_getElem? isThere))

/-- A number counts who sits in the first state of a run that a round of all seats leaves as it is. -/
def CountsSettled (neighbours : Array (List Nat)) (tolerance : Nat) (initial : Array Bool)
    (count : Nat) : Prop :=
  ∃ rounds, Settled neighbours tolerance (occupiedAfter neighbours tolerance initial rounds) ∧
    (∀ earlier < rounds,
      ¬ Settled neighbours tolerance (occupiedAfter neighbours tolerance initial earlier)) ∧
    (occupiedAfter neighbours tolerance initial rounds).toList.count true = count

theorem answer_eq_ok_iff {neighbours : Array (List Nat)} {tolerance : Nat} {initial : Array Bool}
    (fits : Fits neighbours initial.size) {written : String} :
    answer neighbours tolerance initial = .ok written ↔
      ∃ count, CountsSettled neighbours tolerance initial count ∧ written = toString count := by
  rw [answer, bind_eq_ok_iff]
  simp only [Outcome.orFault_eq_ok_iff, settle?_eq_some_iff fits]
  constructor
  · rintro ⟨_, ⟨rounds, rfl, settled, first⟩, ⟨⟩⟩
    exact ⟨_, ⟨rounds, settled, first, rfl⟩, rfl⟩
  · rintro ⟨_, ⟨rounds, settled, first, rfl⟩, rfl⟩
    exact ⟨_, ⟨rounds, rfl, settled, first⟩, rfl⟩

/-- Every rectangular plan has a chart. It numbers the seats row by row and gives each one the seats at the
eight touching places and the first ones in the eight directions, all once, never itself and mutually; who
touches is in sight. An answer counts who sits in the first state of the run that a round of all seats at
once leaves as it is, from any seating of the plan and with any tolerance. -/
theorem chart_shows_and_settles {rows : List (List (Option Bool))} {width : Nat}
    (rectangular : ∀ row ∈ rows, row.length = width) :
    ∃ chart places, SeatChart.ofRows? rows = some chart ∧ chart.Shows rows places ∧
      ∀ neighbours ∈ [chart.adjacent, chart.visible], ∀ (tolerance : Nat) (initial : Array Bool),
        initial.size = places.length → ∀ written, answer neighbours tolerance initial = .ok written ↔
          ∃ count, CountsSettled neighbours tolerance initial count ∧ written = toString count := by
  have rectangular : ∀ row ∈ rows, row.length = (Extent.ofRows rows).width := by
    cases rows with
    | nil => nofun
    | cons first rows =>
      have head : (Extent.ofRows (first :: rows)).width = first.length := rfl
      rw [head, rectangular first List.mem_cons_self]
      exact rectangular
  refine ⟨_, _, SeatChart.ofRows?_eq_some rectangular, SeatChart.shows_ofRows rectangular, ?_⟩
  intro neighbours member tolerance initial sizes written
  rw [← size_initial_ofRows] at sizes
  apply answer_eq_ok_iff
  rw [sizes]
  rcases List.mem_pair.mp member with rfl | rfl
  · exact fits_adjacent rows
  · exact fits_visible rows

/-- Four seats in the corners of a plan with floor between them. -/
def cornerSeats : List (List (Option Bool)) :=
  [[some false, none, some true], [none, none, none], [some true, none, some false]]

theorem chart_shows_and_settles_cornerSeats : (∀ row ∈ cornerSeats, row.length = 3) ∧
    ∃ chart places, SeatChart.ofRows? cornerSeats = some chart ∧ chart.Shows cornerSeats places ∧
      ∀ neighbours ∈ [chart.adjacent, chart.visible], ∀ (tolerance : Nat) (initial : Array Bool),
        initial.size = places.length → ∀ written, answer neighbours tolerance initial = .ok written ↔
          ∃ count, CountsSettled neighbours tolerance initial count ∧ written = toString count := by
  have rectangular : ∀ row ∈ cornerSeats, row.length = 3 := by decide
  exact ⟨rectangular, chart_shows_and_settles rectangular⟩

end PuzzleCalendar.Seating
