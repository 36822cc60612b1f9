import Mathlib.Data.Finset.Max
import PuzzleCalendar.Proofs.Seating.Settling

/-! # Seats in sight always settle

The first seat of a group, row by row, has nobody of the group in the four directions that lead back.
That leaves at most four others of the group around it, however far the view reaches. No seats form a
crowd of tolerance five, so the seats in sight never blink, and every plan settles.
-/

namespace PuzzleCalendar.Seating

/-- The directions that lead to earlier places. -/
def backward : List Place := [(-1, -1), (-1, 0), (-1, 1), (0, -1)]

/-- The directions that lead to later places. -/
def forward : List Place := [(0, 1), (1, -1), (1, 0), (1, 1)]

theorem directions_eq : directions = backward ++ forward := rfl

theorem Place.Before.not_before {one two : Place} (before : one.Before two) : ¬ two.Before one := by
  unfold Place.Before at *
  omega

/-- What lies in a backward direction comes earlier. -/
theorem Place.ahead_before {direction : Place} (back : direction ∈ backward) (place : Place)
    (distance : Nat) : (place.ahead direction (distance + 1)).Before place := by
  simp only [backward, List.mem_cons, List.not_mem_nil, or_false] at back
  unfold Place.Before Place.ahead
  rcases back with rfl | rfl | rfl | rfl <;> push_cast <;> omega

section Numbers

variable {places : List Place} {place direction : Place} {reach seat other : Nat}

/-- Earlier places have smaller numbers. -/
theorem lt_of_before (ordered : places.Pairwise Place.Before) {one two : Place}
    (here : places[seat]? = some one) (there : places[other]? = some two) (before : one.Before two) :
    seat < other := by
  obtain ⟨inside, rfl⟩ := List.getElem?_eq_some_iff.mp here
  obtain ⟨within, rfl⟩ := List.getElem?_eq_some_iff.mp there
  rcases Nat.lt_trichotomy seat other with early | rfl | late
  · exact early
  · exact absurd rfl before.ne
  · exact absurd before (List.pairwise_iff_getElem.mp ordered other seat within inside late).not_before

/-- Whoever is seen in a backward direction has a smaller number. -/
theorem lt_of_sighted_backward (ordered : places.Pairwise Place.Before)
    (here : places[seat]? = some place) (back : direction ∈ backward)
    (seen : sighted (numbering places) reach place direction = some other) : other < seat := by
  obtain ⟨distance, _, found, _⟩ := sighted_eq_some_iff.mp seen
  rw [numbering_eq_some_iff (ordered.imp Place.Before.ne)] at found
  exact lt_of_before ordered found here (Place.ahead_before back place distance)

/-- At most four of the seats around a seat come later. -/
theorem countP_around_le (ordered : places.Pairwise Place.Before)
    (here : places[seat]? = some place) {member : Nat → Bool}
    (later : ∀ other, member other = true → seat ≤ other) :
    (around (numbering places) reach place).countP member ≤ 4 := by
  have split : around (numbering places) reach place =
      backward.filterMap (sighted (numbering places) reach place) ++
        forward.filterMap (sighted (numbering places) reach place) := by
    rw [← List.filterMap_append, ← directions_eq]
    rfl
  have behind : (backward.filterMap (sighted (numbering places) reach place)).countP member = 0 := by
    refine List.countP_eq_zero.mpr fun other around chosen => ?_
    obtain ⟨direction, back, seen⟩ := List.mem_filterMap.mp around
    have smaller := lt_of_sighted_backward ordered here back seen
    have larger := later other chosen
    omega
  calc
    (around (numbering places) reach place).countP member
      = (forward.filterMap (sighted (numbering places) reach place)).countP member := by
        rw [split, List.countP_append, behind, Nat.zero_add]
    _ ≤ (forward.filterMap (sighted (numbering places) reach place)).length := List.countP_le_length
    _ ≤ forward.length := List.length_filterMap_le _ _

/-- No seats of a plan form a crowd of tolerance five. -/
theorem not_crowd_neighboursOf (ordered : places.Pairwise Place.Before) {group : Finset Nat}
    (nonempty : group.Nonempty) : ¬ Crowd (neighboursOf places reach) 5 group := by
  intro crowd
  have crowded := crowd _ (group.min'_mem nonempty)
  rw [getD_neighboursOf] at crowded
  cases here : places[group.min' nonempty]? with
  | none => simp [here] at crowded
  | some place =>
    rw [here, Option.elim_some] at crowded
    have few : (around (numbering places) reach place).countP (· ∈ group) ≤ 4 :=
      countP_around_le ordered here fun other chosen => group.min'_le other (of_decide_eq_true chosen)
    omega

end Numbers

/-- Nobody wants to change: who sits has fewer than the tolerated number around, and who stands has
somebody around. -/
theorem settled_iff {neighbours : Array (List Nat)} {tolerance : Nat} {occupied : Array Bool} :
    Settled neighbours tolerance occupied ↔ ∀ seat < occupied.size,
      if occupied.getD seat false then busy neighbours occupied seat < tolerance
      else 0 < busy neighbours occupied seat := by
  have stays (seat : Nat) (inside : seat < occupied.size) :
      (round neighbours tolerance occupied).getD seat false = occupied.getD seat false ↔
        if occupied.getD seat false then busy neighbours occupied seat < tolerance
        else 0 < busy neighbours occupied seat := by
    rw [getD_round inside]
    cases occupied.getD seat false <;> simp [occupiedNext, Nat.pos_iff_ne_zero]
  constructor
  · intro settled seat inside
    rw [← stays seat inside, settled]
  · intro content
    refine ext_getD size_round fun seat inside => ?_
    rw [size_round] at inside
    exact (stays seat inside).mpr (content seat inside)

/-- Of a plan that can be read, the seats in sight settle: the rounds come to a first one that changes
nothing, the answer counts who sits then, and no seat wants to change. -/
theorem exists_settle?_visible {text : Text} {chart : SeatChart} (parsed : parse text = .ok chart) :
    ∃ rounds final, occupiedAfter chart.visible 5 chart.initial rounds = final ∧
      settle? chart.visible 5 chart.initial = some final ∧
      answer chart.visible 5 chart.initial = .ok (toString (final.toList.count true)) ∧
      (∀ earlier < rounds,
        ¬ Settled chart.visible 5 (occupiedAfter chart.visible 5 chart.initial earlier)) ∧
      Settled chart.visible 5 final ∧
      ∀ seat < chart.initial.size,
        if final.getD seat false then busy chart.visible final seat < 5
        else 0 < busy chart.visible final seat := by
  obtain ⟨rows, _, rfl⟩ := exists_rows_of_parse parsed
  have ordered : ((seats rows).map Prod.fst).Pairwise Place.Before :=
    List.pairwise_map.mpr (seats_pairwise rows)
  cases found : settle? (SeatChart.ofRows rows).visible 5 (SeatChart.ofRows rows).initial with
  | none =>
    obtain ⟨rounds, blinks⟩ :=
      (settle?_eq_none_iff_blinks (mutual_visible rows) (fits_visible rows)).mp found
    obtain ⟨group, nonempty, _, crowd⟩ := exists_crowd_of_blinks blinks
    rw [visible_ofRows] at crowd
    exact absurd crowd (not_crowd_neighboursOf ordered nonempty)
  | some final =>
    obtain ⟨rounds, reached, settled, first⟩ := (settle?_eq_some_iff (fits_visible rows)).mp found
    have sizes : final.size = (SeatChart.ofRows rows).initial.size := by
      rw [← reached, size_occupiedAfter]
    refine ⟨rounds, final, reached, rfl, ?_, first, settled, ?_⟩
    · simp only [answer, found]
      rfl
    · rw [← sizes]
      exact settled_iff.mp settled

/-- The octagon, whose adjacent seats never settle, settles in sight. -/
theorem exists_settle?_visible_octagon : ∃ chart, parse octagon = .ok chart ∧
    ∃ rounds final, occupiedAfter chart.visible 5 chart.initial rounds = final ∧
      settle? chart.visible 5 chart.initial = some final ∧
      answer chart.visible 5 chart.initial = .ok (toString (final.toList.count true)) ∧
      (∀ earlier < rounds,
        ¬ Settled chart.visible 5 (occupiedAfter chart.visible 5 chart.initial earlier)) ∧
      Settled chart.visible 5 final ∧
      ∀ seat < chart.initial.size,
        if final.getD seat false then busy chart.visible final seat < 5
        else 0 < busy chart.visible final seat := by
  obtain ⟨chart, parsed⟩ : ∃ chart, parse octagon = .ok chart := ⟨_, rfl⟩
  exact ⟨chart, parsed, exists_settle?_visible parsed⟩

end PuzzleCalendar.Seating
