import PuzzleCalendar.Proofs.Seating.Energy
import PuzzleCalendar.Proofs.Seating.Table

/-! # The seats of a chart

The seats of a plan are numbered row by row, so every place has at most one number. Whoever looks back
from the first seat in a direction sees the seat that was looked from, and the opposites of the
directions are the directions again. The seats of a chart are therefore around each other mutually.
-/

namespace PuzzleCalendar.Seating

/-- Row by row, a place comes before another one. -/
def Place.Before (one two : Place) : Prop :=
  one.1 < two.1 ∨ one.1 = two.1 ∧ one.2 < two.2

theorem Place.Before.ne {one two : Place} (before : one.Before two) : one ≠ two := by
  rintro rfl
  obtain above | ⟨_, left⟩ := before
  · exact lt_irrefl _ above
  · exact lt_irrefl _ left

private theorem zipIdx_pairwise {α : Type} (cells : List α) :
    cells.zipIdx.Pairwise fun one two => one.2 < two.2 := by
  have ordered : (cells.zipIdx.map Prod.snd).Pairwise (· < ·) := by
    rw [List.zipIdx_map_snd]
    exact List.pairwise_lt_range'
  exact List.pairwise_map.mp ordered

/-- The seats of a plan come row by row. -/
theorem seats_pairwise (rows : List (List (Option Bool))) :
    (seats rows).Pairwise fun one two => one.1.Before two.1 := by
  unfold seats
  rw [List.pairwise_flatMap]
  constructor
  · rintro ⟨row, r⟩ _
    rw [List.pairwise_filterMap]
    refine (zipIdx_pairwise row).imp ?_
    rintro ⟨cell, c⟩ ⟨later, d⟩ left one isOne two isTwo
    obtain ⟨_, _, rfl⟩ := Option.map_eq_some_iff.mp isOne
    obtain ⟨_, _, rfl⟩ := Option.map_eq_some_iff.mp isTwo
    exact .inr ⟨rfl, Int.ofNat_lt.mpr left⟩
  · refine (zipIdx_pairwise rows).imp ?_
    rintro ⟨row, r⟩ ⟨later, s⟩ above one isOne two isTwo
    obtain ⟨_, _, placed⟩ := List.mem_filterMap.mp isOne
    obtain ⟨_, _, rfl⟩ := Option.map_eq_some_iff.mp placed
    obtain ⟨_, _, placed⟩ := List.mem_filterMap.mp isTwo
    obtain ⟨_, _, rfl⟩ := Option.map_eq_some_iff.mp placed
    exact .inl (Int.ofNat_lt.mpr above)

/-- No place has two seats. -/
theorem nodup_places (rows : List (List (Option Bool))) : ((seats rows).map Prod.fst).Nodup :=
  List.pairwise_map.mpr ((seats_pairwise rows).imp Place.Before.ne)

section Numbers

variable {places : List Place} {place direction : Place} {reach seat : Nat}

/-- The number of a place is where it stands in the list. -/
theorem numbering_eq_some_iff (distinct : places.Nodup) :
    (numbering places)[place]? = some seat ↔ places[seat]? = some place := by
  have keys : places.zipIdx.Pairwise fun one two => (one.1 == two.1) = false := by
    have different : (places.zipIdx.map Prod.fst).Pairwise (· ≠ ·) := by
      rw [List.zipIdx_map_fst]
      exact distinct
    exact (List.pairwise_map.mp different).imp fun ne => beq_eq_false_iff_ne.mpr ne
  have listed {index : Nat} (there : places[index]? = some place) :
      (numbering places)[place]? = some index :=
    Std.HashMap.getElem?_ofList_of_mem (beq_self_eq_true place) keys
      (List.mk_mem_zipIdx_iff_getElem?.mpr there)
  constructor
  · intro numbered
    by_cases member : place ∈ places
    · obtain ⟨index, there⟩ := List.mem_iff_getElem?.mp member
      rw [listed there, Option.some_inj] at numbered
      exact numbered ▸ there
    · have missing : ((places.zipIdx.map Prod.fst).contains place) = false := by
        rw [List.zipIdx_map_fst]
        simpa using member
      rw [numbering, Std.HashMap.getElem?_ofList_of_contains_eq_false missing] at numbered
      contradiction
  · exact listed

/-- A place is looked up in the table as it is in the list. -/
theorem getElem?_numbering (distinct : places.Nodup) :
    (numbering places)[place]? = places.idxOf? place := by
  refine Option.ext fun seat => ?_
  rw [numbering_eq_some_iff distinct, List.idxOf?_eq_some_iff, List.getElem?_eq_some_iff]
  constructor
  · rintro ⟨inside, rfl⟩
    exact ⟨inside, rfl, fun earlier before same => absurd (distinct.getElem_inj_iff.mp same) before.ne⟩
  · rintro ⟨inside, there, _⟩
    exact ⟨inside, there⟩

/-- The first seat in a direction. -/
def sighted (numbers : Std.HashMap Place Nat) (reach : Nat) (place direction : Place) : Option Nat :=
  (List.range reach).findSome? fun distance => numbers[place.ahead direction (distance + 1)]?

theorem sighted_eq_some_iff {numbers : Std.HashMap Place Nat} :
    sighted numbers reach place direction = some seat ↔
      ∃ distance < reach, numbers[place.ahead direction (distance + 1)]? = some seat ∧
        ∀ nearer < distance, numbers[place.ahead direction (nearer + 1)]? = none := by
  unfold sighted
  induction reach with
  | zero => simp
  | succ reach ih =>
    rw [List.range_succ, List.findSome?_append, List.findSome?_singleton, Option.or_eq_some_iff, ih]
    constructor
    · rintro (⟨distance, near, first⟩ | ⟨clear, found⟩)
      · exact ⟨distance, by omega, first⟩
      · exact ⟨reach, by omega, found, fun nearer closer =>
          List.findSome?_eq_none_iff.mp clear nearer (List.mem_range.mpr closer)⟩
    · rintro ⟨distance, near, found, clear⟩
      obtain nearer | rfl := Nat.lt_succ_iff_lt_or_eq.mp near
      · exact .inl ⟨distance, nearer, found, clear⟩
      · exact .inr ⟨List.findSome?_eq_none_iff.mpr fun nearer member =>
          clear nearer (List.mem_range.mp member), found⟩

/-- Looking back over a part of the way. -/
theorem Place.ahead_neg (place direction : Place) {away back : Nat} (within : back ≤ away) :
    (place.ahead direction away).ahead (-direction) back = place.ahead direction (away - back) := by
  unfold Place.ahead
  push_cast [within]
  ext <;> simp <;> ring

/-- The seat that is seen sees the seat that looks. -/
theorem sighted_neg (distinct : places.Nodup) {away : Place} {other : Nat}
    (here : places[seat]? = some place) (there : places[other]? = some away)
    (seen : sighted (numbering places) reach place direction = some other) :
    sighted (numbering places) reach away (-direction) = some seat := by
  obtain ⟨distance, near, found, clear⟩ := sighted_eq_some_iff.mp seen
  obtain rfl : place.ahead direction (distance + 1) = away := by
    rw [numbering_eq_some_iff distinct, there, Option.some_inj] at found
    exact found.symm
  refine sighted_eq_some_iff.mpr ⟨distance, near, ?_, fun nearer closer => ?_⟩
  · rw [Place.ahead_neg _ _ le_rfl, numbering_eq_some_iff distinct, here]
    simp [Place.ahead]
  · have between := clear (distance - nearer - 1) (by omega)
    rw [Place.ahead_neg _ _ (by omega)]
    rwa [show distance + 1 - (nearer + 1) = distance - nearer - 1 + 1 by omega]

/-- What is seen is a seat. -/
theorem lt_length_of_sighted (distinct : places.Nodup)
    (seen : sighted (numbering places) reach place direction = some seat) : seat < places.length := by
  obtain ⟨distance, _, found, _⟩ := sighted_eq_some_iff.mp seen
  exact (List.getElem?_eq_some_iff.mp ((numbering_eq_some_iff distinct).mp found)).1

theorem count_around {numbers : Std.HashMap Place Nat} :
    (around numbers reach place).count seat =
      directions.countP fun direction => sighted numbers reach place direction == some seat :=
  List.count_filterMap

/-- The opposites of the directions are the directions. -/
theorem countP_directions (p : Place → Bool) :
    directions.countP p = directions.countP fun direction => p (-direction) := by
  have opposite : directions.map (fun direction => -direction) = directions.reverse := by decide
  calc
    directions.countP p = directions.reverse.countP p := List.countP_reverse.symm
    _ = directions.countP fun direction => p (-direction) := by
      rw [← opposite, List.countP_map]
      rfl

/-- The seats around each place of a list. -/
def neighboursOf (places : List Place) (reach : Nat) : Array (List Nat) :=
  (places.map (around (numbering places) reach)).toArray

/-- The seats around the places, found without a table. -/
theorem neighboursOf_eq (distinct : places.Nodup) (reach : Nat) :
    neighboursOf places reach = (places.map fun place => directions.filterMap fun direction =>
      (List.range reach).findSome? fun distance =>
        places.idxOf? (place.ahead direction (distance + 1))).toArray := by
  have same (place : Place) : around (numbering places) reach place =
      directions.filterMap fun direction => (List.range reach).findSome? fun distance =>
        places.idxOf? (place.ahead direction (distance + 1)) := by
    simp only [around, getElem?_numbering distinct]
  rw [neighboursOf, List.map_congr_left fun place _ => same place]

theorem getD_neighboursOf :
    (neighboursOf places reach).getD seat [] =
      places[seat]?.elim [] (around (numbering places) reach) := by
  cases there : places[seat]? <;> simp [neighboursOf, there]

/-- Around the places are seats only. -/
theorem fits_neighboursOf (distinct : places.Nodup) (reach : Nat) :
    Fits (neighboursOf places reach) places.length where
  size := by simp [neighboursOf]
  inside := by
    intro seats listed other member
    obtain ⟨place, _, rfl⟩ := List.mem_map.mp listed
    obtain ⟨direction, _, seen⟩ := List.mem_filterMap.mp member
    exact lt_length_of_sighted distinct seen

/-- A number that is no seat's is around nobody. -/
theorem count_neighboursOf_eq_zero (distinct : places.Nodup) (missing : places[seat]? = none)
    (other : Nat) : ((neighboursOf places reach).getD other []).count seat = 0 := by
  rw [getD_neighboursOf]
  cases places[other]? with
  | none => rfl
  | some away =>
    rw [Option.elim_some, count_around, List.countP_eq_zero]
    intro direction _ seen
    have inside := lt_length_of_sighted distinct (beq_iff_eq.mp seen)
    have outside := List.getElem?_eq_none_iff.mp missing
    omega

/-- The seats around the places are mutual, however far the view reaches. -/
theorem mutual_neighboursOf (distinct : places.Nodup) (reach : Nat) :
    Mutual (neighboursOf places reach) := by
  intro seat other
  cases here : places[seat]? with
  | none => rw [count_neighboursOf_eq_zero distinct here, getD_neighboursOf, here]; rfl
  | some place =>
    cases there : places[other]? with
    | none => rw [count_neighboursOf_eq_zero distinct there, getD_neighboursOf, there]; rfl
    | some away =>
      rw [getD_neighboursOf, here, getD_neighboursOf, there, Option.elim_some, Option.elim_some,
        count_around, count_around, countP_directions]
      refine List.countP_congr fun direction _ => ?_
      rw [beq_iff_eq, beq_iff_eq]
      constructor
      · intro seen
        simpa using sighted_neg distinct here there seen
      · exact sighted_neg distinct there here

end Numbers

/-- The adjacent seats of a chart are those one step away. -/
theorem adjacent_ofRows (rows : List (List (Option Bool))) :
    (SeatChart.ofRows rows).adjacent = neighboursOf ((seats rows).map Prod.fst) 1 := rfl

/-- The seats in sight are those in reach of the longer side of the plan. -/
theorem visible_ofRows (rows : List (List (Option Bool))) :
    (SeatChart.ofRows rows).visible = neighboursOf ((seats rows).map Prod.fst)
      (max rows.length ((rows.head?.map List.length).getD 0)) := rfl

theorem size_initial_ofRows (rows : List (List (Option Bool))) :
    (SeatChart.ofRows rows).initial.size = ((seats rows).map Prod.fst).length := by
  simp [SeatChart.ofRows]

/-- Adjacent to each seat are seats only. -/
theorem fits_adjacent (rows : List (List (Option Bool))) :
    Fits (SeatChart.ofRows rows).adjacent (SeatChart.ofRows rows).initial.size := by
  rw [adjacent_ofRows, size_initial_ofRows]
  exact fits_neighboursOf (nodup_places rows) 1

/-- In sight of each seat are seats only. -/
theorem fits_visible (rows : List (List (Option Bool))) :
    Fits (SeatChart.ofRows rows).visible (SeatChart.ofRows rows).initial.size := by
  rw [visible_ofRows, size_initial_ofRows]
  exact fits_neighboursOf (nodup_places rows) _

/-- Adjacent seats are mutual. -/
theorem mutual_adjacent (rows : List (List (Option Bool))) : Mutual (SeatChart.ofRows rows).adjacent := by
  rw [adjacent_ofRows]
  exact mutual_neighboursOf (nodup_places rows) 1

/-- Seats in sight are mutual. -/
theorem mutual_visible (rows : List (List (Option Bool))) : Mutual (SeatChart.ofRows rows).visible := by
  rw [visible_ofRows]
  exact mutual_neighboursOf (nodup_places rows) _

end PuzzleCalendar.Seating
