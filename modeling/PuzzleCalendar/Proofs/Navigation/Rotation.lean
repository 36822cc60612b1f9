import Mathlib.Tactic.Ring
import PuzzleCalendar.Puzzles.Navigation

/-! # Rotations by quarter turns

Sine and cosine of multiples of a quarter turn are integers, so a displacement rotated by such an angle is one again.
Quarter turns one after the other rotate by the sum of their angles, and whole turns change nothing.
-/

namespace PuzzleCalendar.Navigation

section Angles

/-- The cosine of an angle in degrees, for multiples of a quarter turn. -/
def cosine (degrees : ℤ) : ℤ :=
  if degrees % 360 = 0 then 1 else if degrees % 360 = 180 then -1 else 0

/-- The sine of an angle in degrees, for multiples of a quarter turn. -/
def sine (degrees : ℤ) : ℤ := cosine (degrees - 90)

theorem cosine_emod (degrees : ℤ) : cosine (degrees % 360) = cosine degrees := by
  simp [cosine]

theorem sine_emod (degrees : ℤ) : sine (degrees % 360) = sine degrees := by
  have same : (degrees % 360 - 90) % 360 = (degrees - 90) % 360 := by omega
  rw [sine, sine, ← cosine_emod, same, cosine_emod]

theorem sine_quarter_add (degrees : ℤ) : sine (90 + degrees) = cosine degrees := by
  rw [sine, add_sub_cancel_left]

theorem cosine_quarter_add (degrees : ℤ) : cosine (90 + degrees) = -sine degrees := by
  simp only [sine, cosine]
  split_ifs <;> omega

theorem cosine_cases (degrees : ℤ) : cosine degrees = 1 ∨ cosine degrees = -1 ∨ cosine degrees = 0 := by
  simp only [cosine]
  split_ifs <;> simp

end Angles

namespace Displacement

/-- The sum of two displacements. -/
def add (first second : Displacement) : Displacement := ⟨first.east + second.east, first.north + second.north⟩

/-- A displacement taken some times. -/
def scale (vector : Displacement) (times : ℤ) : Displacement := ⟨vector.east * times, vector.north * times⟩

/-- A displacement rotated counter-clockwise by an angle. -/
def turned (vector : Displacement) (degrees : ℤ) : Displacement :=
  ⟨vector.east * cosine degrees - vector.north * sine degrees,
    vector.east * sine degrees + vector.north * cosine degrees⟩

/-- The displacement of length one along a heading, which counts counter-clockwise from the east. -/
def along (heading : ℤ) : Displacement := ⟨cosine heading, sine heading⟩

/-- The sum of the distances along both axes. -/
def distance (place : Displacement) : ℕ := place.east.natAbs + place.north.natAbs

/-- Both coordinates are integers of 64 bits. -/
def Held (place : Displacement) : Prop :=
  (-9223372036854775808 ≤ place.east ∧ place.east < 9223372036854775808) ∧
    -9223372036854775808 ≤ place.north ∧ place.north < 9223372036854775808

instance (place : Displacement) : Decidable place.Held := inferInstanceAs (Decidable (_ ∧ _))

end Displacement

section Vectors

variable {vector first second result : Displacement}

theorem displacement?_eq_some_iff {east north : ℤ} :
    displacement? east north = some result ↔ ⟨east, north⟩ = result ∧ result.Held := by
  simp only [displacement?, Option.bind_eq_bind, Option.bind_eq_some_iff, Number.int64?_eq_some_iff,
    Option.pure_def, Option.some.injEq]
  constructor
  · rintro ⟨_, ⟨rfl, low⟩, _, ⟨rfl, high⟩, rfl⟩
    exact ⟨rfl, low, high⟩
  · rintro ⟨rfl, low, high⟩
    exact ⟨_, ⟨rfl, low⟩, _, ⟨rfl, high⟩, rfl⟩

theorem add?_eq_some_iff : first.add? second = some result ↔ first.add second = result ∧ result.Held :=
  displacement?_eq_some_iff

theorem scale?_eq_some_iff {times : ℤ} :
    vector.scale? times = some result ↔ vector.scale times = result ∧ result.Held :=
  displacement?_eq_some_iff

@[simp] theorem turned_zero (vector : Displacement) : vector.turned 0 = vector := by
  simp [Displacement.turned, cosine, sine]

theorem turned_quarter (vector : Displacement) : vector.turned 90 = ⟨-vector.north, vector.east⟩ := by
  simp [Displacement.turned, cosine, sine]

/-- A rotation after a quarter turn is one by the sum of both angles. -/
theorem turned_quarter_turned (vector : Displacement) (degrees : ℤ) :
    (vector.turned 90).turned degrees = vector.turned (90 + degrees) := by
  rw [turned_quarter, Displacement.turned, Displacement.turned, cosine_quarter_add, sine_quarter_add]
  congr 1 <;> ring

theorem turned_emod (vector : Displacement) (degrees : ℤ) : vector.turned (degrees % 360) = vector.turned degrees := by
  rw [Displacement.turned, cosine_emod, sine_emod, Displacement.turned]

theorem along_turned_quarter (heading : ℤ) :
    (Displacement.along heading).turned 90 = Displacement.along (90 + heading) := by
  rw [turned_quarter, Displacement.along, Displacement.along, cosine_quarter_add, sine_quarter_add]

theorem along_turned (heading : ℤ) (quarters : ℕ) :
    (Displacement.along heading).turned (90 * quarters) = Displacement.along (heading + 90 * quarters) := by
  induction quarters generalizing heading with
  | zero => simp
  | succ quarters ih =>
    rw [Nat.cast_succ, mul_add, mul_one, add_comm (90 * (quarters : ℤ)), ← turned_quarter_turned,
      along_turned_quarter, ih]
    congr 1
    ring

theorem along_emod (degrees : ℤ) : Displacement.along (degrees % 360) = Displacement.along degrees := by
  rw [Displacement.along, cosine_emod, sine_emod, Displacement.along]

theorem held_along (heading : ℤ) : (Displacement.along heading).Held := by
  have east := cosine_cases heading
  have north : sine heading = 1 ∨ sine heading = -1 ∨ sine heading = 0 := cosine_cases (heading - 90)
  simp only [Displacement.Held, Displacement.along]
  omega

/-- Quarter turns rotate a displacement by their angle when 64 bits hold the coordinates after each of them. -/
theorem rotate?_eq_some_iff (held : vector.Held) {quarters : ℕ} : vector.rotate? quarters = some result ↔
    vector.turned (90 * quarters) = result ∧ ∀ passed ≤ quarters, (vector.turned (90 * passed)).Held := by
  induction quarters generalizing vector with
  | zero => simp [Displacement.rotate?, held]
  | succ quarters ih =>
    have shift (passed : ℕ) : (vector.turned 90).turned (90 * passed) = vector.turned (90 * (passed + 1 : ℕ)) := by
      rw [turned_quarter_turned, Nat.cast_succ]
      congr 1
      ring
    rw [Displacement.rotate?, Option.bind_eq_bind, Option.bind_eq_some_iff]
    constructor
    · rintro ⟨next, turned, rest⟩
      obtain ⟨rfl, nextHeld⟩ := displacement?_eq_some_iff.mp turned
      rw [← turned_quarter] at nextHeld rest
      obtain ⟨ends, each⟩ := (ih nextHeld).mp rest
      refine ⟨(shift quarters).symm.trans ends, fun passed before => ?_⟩
      cases passed with
      | zero => simpa using held
      | succ passed =>
        rw [← shift]
        exact each passed (Nat.le_of_succ_le_succ before)
    · rintro ⟨ends, each⟩
      have nextHeld : (vector.turned 90).Held := each 1 (Nat.le_add_left 1 quarters)
      refine ⟨vector.turned 90, displacement?_eq_some_iff.mpr ⟨(turned_quarter vector).symm, nextHeld⟩, ?_⟩
      refine (ih nextHeld).mpr ⟨(shift quarters).trans ends, fun passed before => ?_⟩
      rw [shift]
      exact each (passed + 1) (Nat.succ_le_succ before)

theorem distance?_eq_some_iff {place : Displacement} {total : ℕ} :
    place.distance? = some total ↔ place.distance = total ∧ total < 9223372036854775808 := by
  simp only [Displacement.distance?, Option.bind_eq_bind, Option.bind_eq_some_iff, Number.int64?_eq_some_iff,
    Option.pure_def, Option.some.injEq, Displacement.distance]
  constructor
  · rintro ⟨_, ⟨rfl, -⟩, _, ⟨rfl, -⟩, _, ⟨rfl, -, small⟩, rfl⟩
    omega
  · rintro ⟨rfl, small⟩
    exact ⟨_, ⟨rfl, by omega⟩, _, ⟨rfl, by omega⟩, _, ⟨rfl, by omega⟩, by omega⟩

end Vectors

end PuzzleCalendar.Navigation
