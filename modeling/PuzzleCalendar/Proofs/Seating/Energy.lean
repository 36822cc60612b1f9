import Mathlib.Algebra.BigOperators.Ring.Finset
import Mathlib.Algebra.Order.BigOperators.Group.Finset
import Mathlib.Tactic.Linarith
import Mathlib.Tactic.Ring
import PuzzleCalendar.Proofs.Seating.Buffers

/-! # The energy of a seating

When seats are around each other mutually, two states in a row have an energy that does not depend on
their order. A round chooses the state that has the greatest energy together with the state before
it. So the energy rises with every round until the state after next is the state itself, and it is
bounded. A run that never settles therefore comes to blink, and the seats that blink form a crowd: each
of them has as many members of the crowd around it as the tolerance says.
-/

namespace PuzzleCalendar.Seating

open Finset

/-- Every seat is around another one as often as the other one is around it. -/
def Mutual (neighbours : Array (List Nat)) : Prop :=
  ∀ seat other, (neighbours.getD seat []).count other = (neighbours.getD other []).count seat

/-- One for an occupied seat. -/
def value (occupied : Array Bool) (seat : Nat) : Int :=
  if occupied.getD seat false then 1 else 0

/-- How strongly a seat is drawn to be occupied next. It is never zero. -/
def drive (neighbours : Array (List Nat)) (tolerance : Nat) (occupied : Array Bool) (seat : Nat) :
    Int :=
  2 * (tolerance - 1) * value occupied seat - 2 * busy neighbours occupied seat + 1

/-- The energy of two states. -/
def energy (neighbours : Array (List Nat)) (tolerance : Nat) (one two : Array Bool) : Int :=
  ∑ seat ∈ range two.size, (value one seat * drive neighbours tolerance two seat + value two seat)

variable {neighbours : Array (List Nat)} {tolerance : Nat} {one two : Array Bool}

theorem value_eq_zero_or_one (occupied : Array Bool) (seat : Nat) :
    value occupied seat = 0 ∨ value occupied seat = 1 := by
  unfold value
  split
  · exact .inr rfl
  · exact .inl rfl

theorem value_eq_zero_of_size_le {occupied : Array Bool} {seat : Nat}
    (outside : occupied.size ≤ seat) : value occupied seat = 0 := by
  simp [value, Array.getD, outside]

theorem value_inj {seat : Nat} :
    value one seat = value two seat ↔ one.getD seat false = two.getD seat false := by
  unfold value
  cases one.getD seat false <;> cases two.getD seat false <;> simp

/-- The occupied seats of a list, counted seat by seat. -/
theorem countP_eq_sum (occupied : Array Bool) (seats : List Nat) :
    ((seats.countP fun other => occupied.getD other false : Nat) : Int) =
      ∑ other ∈ range occupied.size, (seats.count other : Int) * value occupied other := by
  induction seats with
  | nil => simp
  | cons head rest ih =>
    have single : ∑ other ∈ range occupied.size,
        (if head == other then 1 else 0 : Int) * value occupied other = value occupied head := by
      by_cases inside : head < occupied.size
      · rw [sum_eq_single_of_mem head (mem_range.mpr inside)]
        · simp
        · intro other _ different
          simp [Ne.symm different]
      · rw [value_eq_zero_of_size_le (by omega)]
        refine sum_eq_zero fun other member => ?_
        have different : head ≠ other := by
          have := mem_range.mp member
          omega
        simp [different]
    have head_value : (if occupied.getD head false then 1 else 0 : Int) = value occupied head := rfl
    simp only [List.countP_cons, List.count_cons, Nat.cast_add, add_mul, sum_add_distrib, ih,
      Nat.cast_ite, Nat.cast_one, Nat.cast_zero, single, head_value]

/-- Mutual seats are weighed against each other the same way from both sides. -/
theorem sum_value_mul_busy (symmetric : Mutual neighbours) (sizes : one.size = two.size) :
    ∑ seat ∈ range one.size, value one seat * busy neighbours two seat =
      ∑ seat ∈ range one.size, value two seat * busy neighbours one seat := by
  simp only [busy, countP_eq_sum, mul_sum, ← sizes]
  rw [sum_comm]
  refine sum_congr rfl fun seat _ => sum_congr rfl fun other _ => ?_
  rw [symmetric seat other]
  ring

theorem energy_comm (symmetric : Mutual neighbours) (sizes : one.size = two.size) :
    energy neighbours tolerance one two = energy neighbours tolerance two one := by
  have expand (first second : Array Bool) (same : first.size = second.size) :
      energy neighbours tolerance first second =
        ∑ seat ∈ range first.size, (2 * (tolerance - 1) * value first seat * value second seat +
          value first seat + value second seat) -
        2 * ∑ seat ∈ range first.size, value first seat * busy neighbours second seat := by
    rw [mul_sum, ← sum_sub_distrib, energy, same]
    refine sum_congr rfl fun seat _ => ?_
    unfold drive
    ring
  rw [expand one two sizes, expand two one sizes.symm, ← sizes, sum_value_mul_busy symmetric sizes]
  congr 1
  refine sum_congr rfl fun seat _ => ?_
  ring

theorem drive_pos_iff {occupied : Array Bool} {seat : Nat} :
    0 < drive neighbours tolerance occupied seat ↔
      occupiedNext tolerance (occupied.getD seat false) (busy neighbours occupied seat) = true := by
  unfold drive value occupiedNext
  cases occupied.getD seat false with
  | false =>
    simp only [Bool.false_eq_true, ↓reduceIte, decide_eq_true_eq]
    omega
  | true =>
    simp only [↓reduceIte, decide_eq_true_eq]
    omega

/-- A seat is occupied after a round when it is drawn to be. -/
theorem value_round {occupied : Array Bool} {seat : Nat} (inside : seat < occupied.size) :
    value (round neighbours tolerance occupied) seat =
      if 0 < drive neighbours tolerance occupied seat then 1 else 0 := by
  simp only [value, getD_round inside, drive_pos_iff]

/-- What a round makes of a seat has no less energy than anything else, and more than what differs
from it. -/
theorem value_mul_drive_lt {seat : Nat} (inside : seat < two.size)
    (changed : value one seat ≠ value (round neighbours tolerance two) seat) :
    value one seat * drive neighbours tolerance two seat <
      value (round neighbours tolerance two) seat * drive neighbours tolerance two seat := by
  have odd : drive neighbours tolerance two seat ≠ 0 := by
    unfold drive
    obtain empty | taken := value_eq_zero_or_one two seat
    · rw [empty]
      omega
    · rw [taken]
      omega
  rw [value_round inside] at changed ⊢
  by_cases drawn : 0 < drive neighbours tolerance two seat
  · rw [if_pos drawn] at changed ⊢
    obtain empty | taken := value_eq_zero_or_one one seat
    · rw [empty]
      omega
    · exact absurd taken changed
  · rw [if_neg drawn] at changed ⊢
    obtain empty | taken := value_eq_zero_or_one one seat
    · exact absurd empty changed
    · rw [taken]
      omega

/-- The energy rises unless the state after next is the state itself. -/
theorem energy_lt_of_round_ne (symmetric : Mutual neighbours) (sizes : one.size = two.size)
    (changed : round neighbours tolerance two ≠ one) :
    energy neighbours tolerance one two <
      energy neighbours tolerance two (round neighbours tolerance two) := by
  rw [energy_comm symmetric size_round.symm]
  unfold energy
  refine sum_lt_sum (fun seat member => ?_) ?_
  · by_cases same : value one seat = value (round neighbours tolerance two) seat
    · rw [same]
    · have := value_mul_drive_lt (mem_range.mp member) same
      omega
  · obtain ⟨seat, inside, different⟩ := exists_getD_ne (size_round.trans sizes.symm) changed
    rw [size_round] at inside
    refine ⟨seat, mem_range.mpr inside, ?_⟩
    have := value_mul_drive_lt inside fun same => different (value_inj.mp same.symm)
    omega

theorem energy_le (one two : Array Bool) :
    energy neighbours tolerance one two ≤ two.size * (2 * tolerance + 2) := by
  have term (seat : Nat) : value one seat * drive neighbours tolerance two seat + value two seat ≤
      2 * tolerance + 2 := by
    unfold drive
    rcases value_eq_zero_or_one one seat with empty | taken <;>
      rcases value_eq_zero_or_one two seat with free | held <;> simp [*] <;> omega
  calc
    energy neighbours tolerance one two ≤ ∑ _ ∈ range two.size, (2 * tolerance + 2 : Int) :=
      sum_le_sum fun seat _ => term seat
    _ = two.size * (2 * tolerance + 2) := by simp

/-- Every run comes to a state that the round after next restores. -/
theorem exists_round_round_eq (symmetric : Mutual neighbours) (initial : Array Bool) :
    ∃ count, occupiedAfter neighbours tolerance initial (count + 2) =
      occupiedAfter neighbours tolerance initial count := by
  by_contra never
  push Not at never
  let level (count : Nat) : Int := energy neighbours tolerance
    (occupiedAfter neighbours tolerance initial count)
    (occupiedAfter neighbours tolerance initial (count + 1))
  have rises (count : Nat) : level count < level (count + 1) := by
    have sizes : (occupiedAfter neighbours tolerance initial count).size =
        (occupiedAfter neighbours tolerance initial (count + 1)).size := by simp
    have changed := never count
    rw [occupiedAfter_succ] at changed
    have step := energy_lt_of_round_ne symmetric sizes changed
    rwa [← occupiedAfter_succ] at step
  have climbs (count : Nat) : level 0 + count ≤ level count := by
    induction count with
    | zero => simp
    | succ count ih =>
      have := rises count
      push_cast
      omega
  have bound (count : Nat) : level count ≤ initial.size * (2 * tolerance + 2) := by
    have step : level count ≤ _ := energy_le _ _
    simpa using step
  have high := climbs (initial.size * (2 * tolerance + 2) - level 0 + 1).toNat
  have low := bound (initial.size * (2 * tolerance + 2) - level 0 + 1).toNat
  omega

/-- With mutual seats a run either settles or comes to blink. -/
theorem settle?_eq_none_iff_blinks (symmetric : Mutual neighbours) {initial : Array Bool}
    (fits : Fits neighbours initial.size) :
    settle? neighbours tolerance initial = none ↔
      ∃ count, Blinks neighbours tolerance (occupiedAfter neighbours tolerance initial count) := by
  rw [settle?_eq_none_iff fits]
  constructor
  · intro never
    obtain ⟨count, restored⟩ := exists_round_round_eq symmetric initial
    rw [occupiedAfter_succ, occupiedAfter_succ] at restored
    exact ⟨count, restored, never count⟩
  · rintro ⟨count, blinks⟩
    exact not_settled_of_blinks blinks

/-- Each member of a crowd has as many members around it as the tolerance says. -/
def Crowd (neighbours : Array (List Nat)) (tolerance : Nat) (group : Finset Nat) : Prop :=
  ∀ seat ∈ group, tolerance ≤ (neighbours.getD seat []).countP (· ∈ group)

/-- The seats that a round fills. -/
def risers (neighbours : Array (List Nat)) (tolerance : Nat) (occupied : Array Bool) : Finset Nat :=
  {seat ∈ range occupied.size | occupied.getD seat false = false ∧
    (round neighbours tolerance occupied).getD seat false = true}

theorem mem_risers {occupied : Array Bool} {seat : Nat} :
    seat ∈ risers neighbours tolerance occupied ↔ seat < occupied.size ∧
      occupied.getD seat false = false ∧
        (round neighbours tolerance occupied).getD seat false = true := by
  rw [risers, mem_filter, mem_range]

/-- Seats that the next round empties again were filled because nobody was around them, and are
emptied because of others that were filled with them. -/
theorem crowd_risers {occupied : Array Bool}
    (restored : round neighbours tolerance (round neighbours tolerance occupied) = occupied) :
    Crowd neighbours tolerance (risers neighbours tolerance occupied) := by
  intro seat member
  obtain ⟨inside, empty, filled⟩ := mem_risers.mp member
  have alone : busy neighbours occupied seat = 0 := by
    rw [getD_round inside, empty] at filled
    simpa [occupiedNext] using filled
  have crowded : tolerance ≤ busy neighbours (round neighbours tolerance occupied) seat := by
    have emptied : (round neighbours tolerance (round neighbours tolerance occupied)).getD seat false =
        false := by rw [restored, empty]
    rw [getD_round (by simpa using inside), filled] at emptied
    simpa [occupiedNext] using emptied
  refine crowded.trans (List.countP_mono_left fun other around taken => ?_)
  have free : occupied.getD other false = false :=
    Bool.eq_false_iff.mpr (List.countP_eq_zero.mp alone other around)
  have there : other < occupied.size := by
    by_contra outside
    simp [Array.getD, outside] at taken
  exact decide_eq_true (mem_risers.mpr ⟨there, free, taken⟩)

/-- Blinking takes a crowd. -/
theorem exists_crowd_of_blinks {occupied : Array Bool} (blinks : Blinks neighbours tolerance occupied) :
    ∃ group : Finset Nat, group.Nonempty ∧ (∀ seat ∈ group, seat < occupied.size) ∧
      Crowd neighbours tolerance group := by
  obtain ⟨restored, changed⟩ := blinks
  obtain ⟨seat, inside, different⟩ := exists_getD_ne size_round changed
  rw [size_round] at inside
  cases before : occupied.getD seat false with
  | false =>
    have filled := Bool.eq_true_of_not_eq_false (before ▸ different)
    exact ⟨risers neighbours tolerance occupied, ⟨seat, mem_risers.mpr ⟨inside, before, filled⟩⟩,
      fun other member => (mem_risers.mp member).1, crowd_risers restored⟩
  | true =>
    -- The seat is emptied, and the round after that fills it again.
    have emptied := Bool.eq_false_of_not_eq_true (before ▸ different)
    refine ⟨risers neighbours tolerance (round neighbours tolerance occupied), ⟨seat, ?_⟩, ?_,
      crowd_risers (by rw [restored])⟩
    · exact mem_risers.mpr ⟨by simpa using inside, emptied, by rw [restored, before]⟩
    · intro other member
      simpa using (mem_risers.mp member).1

end PuzzleCalendar.Seating
