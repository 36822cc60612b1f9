import PuzzleCalendar.Puzzle

/-! # Registries

The calendar has a place for each of its days, year by year and day by day. A registry holds at each place
what was registered for the day, if anything was. What is registered opens a session for an input.
Registering fails outside the calendar and for a day that is taken.
-/

namespace PuzzleCalendar

/-- A day of a year. -/
structure Date where
  year : Nat
  day : Nat
deriving DecidableEq, Repr

namespace Date

/-- The years and days of the calendar. -/
def InCalendar (date : Date) : Prop :=
  2015 ≤ date.year ∧ date.year ≤ 2034 ∧ 1 ≤ date.day ∧ date.day ≤ 25

instance (date : Date) : Decidable date.InCalendar :=
  inferInstanceAs (Decidable (_ ∧ _))

/-- The order of the calendar. -/
def Before (first second : Date) : Prop :=
  first.year < second.year ∨ first.year = second.year ∧ first.day < second.day

instance (first second : Date) : Decidable (first.Before second) :=
  inferInstanceAs (Decidable (_ ∨ _))

/-- The first year of the calendar. -/
def firstYear : Nat := 2015

/-- The days of each year. -/
def daysPerYear : Nat := 25

/-- The days of all twenty years. -/
def placeCount : Nat := 20 * daysPerYear

/-- The place of a day of the calendar. -/
def place? (date : Date) : Option (Fin placeCount) :=
  if inside : date.InCalendar then
    some ⟨(date.year - firstYear) * daysPerYear + (date.day - 1), by
      simp only [InCalendar] at inside
      simp only [placeCount, firstYear, daysPerYear]
      omega⟩
  else none

/-- The day at a place. Its year is a word of 16 bits and its day one of 8 bits. -/
def atPlace (place : Nat) : Date where
  year := firstYear + (place / daysPerYear).toUInt16.toNat
  day := (place % daysPerYear).toUInt8.toNat + 1

/-- No place of the calendar leaves the words. -/
theorem atPlace_eq {place : Nat} (within : place < placeCount) :
    atPlace place = ⟨firstYear + place / daysPerYear, place % daysPerYear + 1⟩ := by
  simp only [placeCount, daysPerYear] at within
  simp only [atPlace, daysPerYear, Nat.toUInt16_eq, Nat.toUInt8_eq, UInt16.toNat_ofNat',
    UInt8.toNat_ofNat', mk.injEq]
  omega

theorem place?_eq_none_iff {date : Date} : date.place? = none ↔ ¬ date.InCalendar := by
  simp [place?]

theorem inCalendar_of_place? {date : Date} {place : Fin placeCount}
    (placed : date.place? = some place) : date.InCalendar := by
  unfold place? at placed
  split at placed
  · assumption
  · contradiction

/-- Every place has its day in the calendar. -/
@[simp] theorem place?_atPlace (place : Fin placeCount) : (atPlace place).place? = some place := by
  obtain ⟨place, within⟩ := place
  have inside : (atPlace place).InCalendar := by
    rw [atPlace_eq within]
    simp only [placeCount, daysPerYear, firstYear, InCalendar] at within ⊢
    omega
  rw [place?, dif_pos inside, Option.some_inj, Fin.mk.injEq, atPlace_eq within]
  simp only [firstYear, daysPerYear]
  omega

/-- No two days share a place. -/
theorem atPlace_of_place? {date : Date} {place : Fin placeCount}
    (placed : date.place? = some place) : atPlace place = date := by
  have inside := inCalendar_of_place? placed
  rw [place?, dif_pos inside] at placed
  obtain rfl := Option.some_inj.mp placed
  rw [atPlace_eq (Fin.isLt _)]
  cases date
  simp only [InCalendar, firstYear, daysPerYear, mk.injEq] at inside ⊢
  omega

/-- Places follow each other in the order of the calendar. -/
theorem atPlace_before {early late : Nat} (within : late < placeCount) (before : early < late) :
    (atPlace early).Before (atPlace late) := by
  rw [atPlace_eq (Nat.lt_trans before within), atPlace_eq within]
  simp only [Before, daysPerYear]
  omega

end Date

/-- What is registered for a day: how many parts there are, and how a session is opened for an input. -/
structure Factory where
  parts : Nat
  create : Text → Outcome ParseError Session

/-- A day and what is registered for it. -/
structure Entry extends Factory where
  date : Date

/-- The entry of a puzzle. -/
def Entry.ofPuzzle (date : Date) (puzzle : Puzzle) : Entry where
  date := date
  parts := puzzle.parts
  create := Session.start puzzle date.year date.day

/-- What is registered at each place of the calendar. -/
structure Registry where
  places : Vector (Option Factory) Date.placeCount

namespace Registry

/-- The registry without an entry. -/
def empty : Registry := ⟨Vector.replicate Date.placeCount none⟩

/-- What is registered for a day. -/
def factory? (registry : Registry) (date : Date) : Option Factory :=
  date.place?.bind fun place => registry.places[place]

/-- The entry of a day. -/
def find? (registry : Registry) (date : Date) : Option Entry :=
  (registry.factory? date).map fun factory => { factory with date }

/-- Whether a day has an entry. -/
def contains (registry : Registry) (date : Date) : Bool := (registry.find? date).isSome

/-- All entries, place by place. -/
def entries (registry : Registry) : List Entry :=
  registry.places.toList.zipIdx.filterMap fun (factory?, place) =>
    factory?.map fun factory => { factory with date := Date.atPlace place }

/-- The number of entries. -/
def size (registry : Registry) : Nat := registry.places.toList.countP Option.isSome

/-- Whether there is no entry. -/
def isEmpty (registry : Registry) : Bool := registry.places.toList.all Option.isNone

/-- The registry with one more entry. -/
def register (registry : Registry) (entry : Entry) : Except RegistrationError Registry :=
  match entry.date.place? with
  | none => .error (.invalidYearDay entry.date.year entry.date.day)
  | some place =>
    if (registry.places[place]).isSome then
      .error (.duplicateSolver entry.date.year entry.date.day)
    else .ok ⟨registry.places.set place (some entry.toFactory)⟩

/-- The registry with entries registered one after the other. -/
def registerAll (registry : Registry) : List Entry → Except RegistrationError Registry
  | [] => .ok registry
  | entry :: entries =>
    match registry.register entry with
    | .ok registry => registry.registerAll entries
    | .error error => .error error

/-- Opens a session of the puzzle of a day for an input. -/
def create (registry : Registry) (date : Date) (input : Text) : Outcome LookupError Session :=
  match date.place? with
  | none => Outcome.report (.invalidYearDay date.year date.day)
  | some place =>
    match registry.places[place] with
    | none => Outcome.report (.notFound date.year date.day)
    | some factory => (factory.create input).mapReport LookupError.parse

end Registry

end PuzzleCalendar
