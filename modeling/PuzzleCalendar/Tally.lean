import Std.Data.HashMap

/-! # Tallies

A tally counts how often each element of a list occurs.
-/

namespace PuzzleCalendar

variable {α : Type} [BEq α] [LawfulBEq α] [Hashable α]

/-- The counts of one more element. -/
def recorded (counts : Std.HashMap α Nat) (element : α) : Std.HashMap α Nat :=
  counts.insert element (counts.getD element 0 + 1)

/-- How often each element of a list occurs. -/
def tally (elements : List α) : Std.HashMap α Nat :=
  elements.foldl recorded ∅

theorem getD_foldl_recorded (elements : List α) (counts : Std.HashMap α Nat) (element : α) :
    (elements.foldl recorded counts).getD element 0 =
      counts.getD element 0 + elements.count element := by
  induction elements generalizing counts with
  | nil => simp
  | cons head rest ih =>
    rw [List.foldl_cons, ih, recorded, Std.HashMap.getD_insert, List.count_cons]
    by_cases same : head = element
    · simp [same]
      omega
    · simp [same]

/-- A tally gives the number of occurrences. -/
theorem getD_tally (elements : List α) (element : α) :
    (tally elements).getD element 0 = elements.count element := by
  simp [tally, getD_foldl_recorded]

theorem mem_foldl_recorded (elements : List α) (counts : Std.HashMap α Nat) (element : α) :
    element ∈ elements.foldl recorded counts ↔ element ∈ counts ∨ element ∈ elements := by
  induction elements generalizing counts with
  | nil => simp
  | cons head rest ih =>
    rw [List.foldl_cons, ih, recorded, Std.HashMap.mem_insert, List.mem_cons]
    constructor
    · rintro ((same | known) | later)
      · exact .inr (.inl (LawfulBEq.eq_of_beq same).symm)
      · exact .inl known
      · exact .inr (.inr later)
    · rintro (known | rfl | later)
      · exact .inl (.inr known)
      · exact .inl (.inl (by simp))
      · exact .inr later

/-- A tally knows the elements that occur. -/
theorem mem_tally (elements : List α) (element : α) :
    element ∈ tally elements ↔ element ∈ elements := by
  simp [tally, mem_foldl_recorded]

/-- A tally holds the number of occurrences of each element that occurs, and nothing else. -/
theorem getElem?_tally_eq_some_iff {elements : List α} {element : α} {count : Nat} :
    (tally elements)[element]? = some count ↔ element ∈ elements ∧ elements.count element = count := by
  rw [← mem_tally, ← getD_tally, Std.HashMap.getD_eq_getD_getElem?, Std.HashMap.mem_iff_isSome_getElem?]
  cases (tally elements)[element]? <;> simp

end PuzzleCalendar
