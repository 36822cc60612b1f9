import Mathlib.Data.Fintype.BigOperators
import Mathlib.Data.Fintype.Pi
import Mathlib.Logic.Function.Iterate
import Mathlib.Tactic.Push
import PuzzleCalendar.Puzzles.Seating

/-! # Rounds of a seating

In a round all seats change at once, and rounds go on until one changes nothing. A seating of finitely
many seats has finitely many states, so the first round that changes nothing comes before the states run
out or never.
-/

namespace PuzzleCalendar.Seating

/-- One round. -/
def round (neighbours : Array (List Nat)) (tolerance : Nat) (occupied : Array Bool) : Array Bool :=
  occupied.mapIdx fun seat taken =>
    occupiedNext tolerance taken ((neighbours.getD seat []).countP fun other => occupied.getD other false)

/-- The seats after the first round that changes nothing, when one of the next `rounds` rounds is
it. -/
def settleWithin (neighbours : Array (List Nat)) (tolerance : Nat) :
    Nat → Array Bool → Option (Array Bool)
  | 0, _ => none
  | rounds + 1, occupied =>
    let next := round neighbours tolerance occupied
    if next = occupied then some occupied else settleWithin neighbours tolerance rounds next

/-- The seats after some rounds. -/
def occupiedAfter (neighbours : Array (List Nat)) (tolerance : Nat) (initial : Array Bool)
    (rounds : Nat) : Array Bool :=
  (round neighbours tolerance)^[rounds] initial

/-- A round changes nothing. -/
def Settled (neighbours : Array (List Nat)) (tolerance : Nat) (occupied : Array Bool) : Prop :=
  round neighbours tolerance occupied = occupied

/-- A round changes something and the next one takes it back. -/
def Blinks (neighbours : Array (List Nat)) (tolerance : Nat) (occupied : Array Bool) : Prop :=
  round neighbours tolerance (round neighbours tolerance occupied) = occupied ∧
    ¬ Settled neighbours tolerance occupied

instance (neighbours : Array (List Nat)) (tolerance : Nat) (occupied : Array Bool) :
    Decidable (Settled neighbours tolerance occupied) :=
  inferInstanceAs (Decidable (_ = _))

instance (neighbours : Array (List Nat)) (tolerance : Nat) (occupied : Array Bool) :
    Decidable (Blinks neighbours tolerance occupied) :=
  inferInstanceAs (Decidable (_ ∧ _))

/-- The number of occupied seats around a seat. -/
def busy (neighbours : Array (List Nat)) (occupied : Array Bool) (seat : Nat) : Nat :=
  (neighbours.getD seat []).countP fun other => occupied.getD other false

variable {neighbours : Array (List Nat)} {tolerance : Nat} {initial occupied : Array Bool}

@[simp] theorem size_round : (round neighbours tolerance occupied).size = occupied.size := by
  simp [round]

@[simp] theorem occupiedAfter_zero : occupiedAfter neighbours tolerance initial 0 = initial := rfl

theorem occupiedAfter_succ (rounds : Nat) :
    occupiedAfter neighbours tolerance initial (rounds + 1) =
      round neighbours tolerance (occupiedAfter neighbours tolerance initial rounds) :=
  Function.iterate_succ_apply' _ _ _

theorem occupiedAfter_add (first second : Nat) :
    occupiedAfter neighbours tolerance initial (first + second) =
      occupiedAfter neighbours tolerance (occupiedAfter neighbours tolerance initial first) second := by
  rw [Nat.add_comm]
  exact Function.iterate_add_apply _ _ _ _

@[simp] theorem size_occupiedAfter (rounds : Nat) :
    (occupiedAfter neighbours tolerance initial rounds).size = initial.size := by
  induction rounds with
  | zero => rfl
  | succ rounds ih => rw [occupiedAfter_succ, size_round, ih]

/-- What a round makes of a seat. -/
theorem getD_round {seat : Nat} (inside : seat < occupied.size) :
    (round neighbours tolerance occupied).getD seat false =
      occupiedNext tolerance (occupied.getD seat false) (busy neighbours occupied seat) := by
  simp [round, busy, Array.getD, inside]

/-- A settled seating stays as it is. -/
theorem Settled.occupiedAfter (settled : Settled neighbours tolerance occupied) (rounds : Nat) :
    occupiedAfter neighbours tolerance occupied rounds = occupied :=
  Function.iterate_fixed settled rounds

/-- Two states of a run that are equal go on alike. -/
theorem occupiedAfter_congr {first second : Nat}
    (same : occupiedAfter neighbours tolerance initial first =
      occupiedAfter neighbours tolerance initial second) (more : Nat) :
    occupiedAfter neighbours tolerance initial (first + more) =
      occupiedAfter neighbours tolerance initial (second + more) := by
  rw [occupiedAfter_add, occupiedAfter_add, same]

/-- The search stops at the first settled state, when it comes within the rounds. -/
theorem settleWithin_eq_some_iff {rounds : Nat} {final : Array Bool} :
    settleWithin neighbours tolerance rounds initial = some final ↔
      ∃ count < rounds, occupiedAfter neighbours tolerance initial count = final ∧
        Settled neighbours tolerance final ∧
        ∀ earlier < count, ¬ Settled neighbours tolerance
          (occupiedAfter neighbours tolerance initial earlier) := by
  induction rounds generalizing initial with
  | zero => simp [settleWithin]
  | succ rounds ih =>
    by_cases settled : Settled neighbours tolerance initial
    · have stops : settleWithin neighbours tolerance (rounds + 1) initial = some initial := if_pos settled
      rw [stops, Option.some_inj]
      constructor
      · rintro rfl
        exact ⟨0, by omega, rfl, settled, by simp⟩
      · rintro ⟨count, _, rfl, _, first⟩
        exact (settled.occupiedAfter count).symm
    · have goes : settleWithin neighbours tolerance (rounds + 1) initial =
          settleWithin neighbours tolerance rounds (round neighbours tolerance initial) := if_neg settled
      rw [goes, ih]
      constructor
      · rintro ⟨count, bound, reached, fixed, first⟩
        refine ⟨count + 1, by omega, reached, fixed, ?_⟩
        intro earlier early
        cases earlier with
        | zero => exact settled
        | succ earlier => exact first earlier (by omega)
      · rintro ⟨count, bound, reached, fixed, first⟩
        cases count with
        | zero =>
          obtain rfl : initial = final := reached
          exact absurd fixed settled
        | succ count =>
          exact ⟨count, by omega, reached, fixed, fun earlier early => first (earlier + 1) (by omega)⟩

/-- Before the first settled state no state comes twice. -/
theorem occupiedAfter_injOn {count : Nat}
    (settled : Settled neighbours tolerance (occupiedAfter neighbours tolerance initial count))
    (first : ∀ earlier < count, ¬ Settled neighbours tolerance
      (occupiedAfter neighbours tolerance initial earlier)) {one two : Nat} (early : one < two)
    (late : two ≤ count) : occupiedAfter neighbours tolerance initial one ≠
      occupiedAfter neighbours tolerance initial two := by
  intro same
  have again := occupiedAfter_congr same (count - two)
  rw [Nat.add_sub_cancel' late] at again
  exact first (one + (count - two)) (by omega) (again ▸ settled)

/-- Seatings of one size are equal when each seat is. -/
theorem ext_getD {one two : Array Bool} (sizes : one.size = two.size)
    (same : ∀ seat < one.size, one.getD seat false = two.getD seat false) : one = two := by
  refine Array.ext sizes fun seat inside there => ?_
  simpa [Array.getD, inside, there] using same seat inside

theorem exists_getD_ne {one two : Array Bool} (sizes : one.size = two.size) (different : one ≠ two) :
    ∃ seat < one.size, one.getD seat false ≠ two.getD seat false := by
  by_contra all
  push Not at all
  exact different (ext_getD sizes all)

/-- The first settled state comes before the states run out. -/
theorem count_lt_of_settled {count : Nat}
    (settled : Settled neighbours tolerance (occupiedAfter neighbours tolerance initial count))
    (first : ∀ earlier < count, ¬ Settled neighbours tolerance
      (occupiedAfter neighbours tolerance initial earlier)) : count < 2 ^ initial.size := by
  let view (rounds : Fin (count + 1)) (seat : Fin initial.size) : Bool :=
    (occupiedAfter neighbours tolerance initial rounds).getD seat false
  have injective : Function.Injective view := by
    intro one two same
    have equal : occupiedAfter neighbours tolerance initial one =
        occupiedAfter neighbours tolerance initial two :=
      ext_getD (by simp) fun seat inside => congrFun same ⟨seat, by simpa using inside⟩
    rcases Nat.lt_trichotomy one.val two.val with early | here | late
    · exact absurd equal (occupiedAfter_injOn settled first early (by omega))
    · exact Fin.ext here
    · exact absurd equal.symm (occupiedAfter_injOn settled first late (by omega))
  have bound := Fintype.card_le_of_injective view injective
  rw [Fintype.card_fin, Fintype.card_fun, Fintype.card_fin, Fintype.card_bool] at bound
  exact bound

/-- A run that comes to blink never settles. -/
theorem not_settled_of_blinks {start : Nat}
    (blinks : Blinks neighbours tolerance (occupiedAfter neighbours tolerance initial start))
    (count : Nat) :
    ¬ Settled neighbours tolerance (occupiedAfter neighbours tolerance initial count) := by
  intro settled
  have twice (rounds : Nat) : occupiedAfter neighbours tolerance initial (start + 2 * rounds) =
      occupiedAfter neighbours tolerance initial start := by
    induction rounds with
    | zero => rfl
    | succ rounds ih =>
      rw [Nat.mul_succ, ← Nat.add_assoc, occupiedAfter_succ, occupiedAfter_succ, ih]
      exact blinks.1
  -- Both states of the blinking come after any round.
  have late := settled.occupiedAfter (start + 2 * count - count)
  rw [← occupiedAfter_add, Nat.add_sub_cancel' (by omega), twice] at late
  exact blinks.2 (late ▸ settled)

end PuzzleCalendar.Seating
