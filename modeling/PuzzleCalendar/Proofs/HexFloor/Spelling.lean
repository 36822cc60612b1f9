import PuzzleCalendar.Puzzles.HexFloor

/-! # Spelled paths

The names of the directions have one character or two and follow each other without a separator. No name
starts another one, so that a text is spelled by at most one path: reading takes a name off its front for
as long as it starts with one. Where it does not, an `n` or `s` is left without its second character, or a
foreign character stands there.
-/

namespace PuzzleCalendar.HexFloor

open Text

/-- The names of the directions of a path, one after the other. -/
def spell (path : List Direction) : Text := path.flatMap Direction.name

/-- No name starts a text, and the error tells why. -/
inductive Stuck : Text → PathError → Prop
  | unfinished {first : Char} {rest : Text} (half : first = 'n' ∨ first = 's')
      (other : ∀ next ∈ rest.head?, next ≠ 'e' ∧ next ≠ 'w') : Stuck (first :: rest) (.unfinished first)
  | unexpected {first : Char} (rest : Text) (foreign : first ∉ ['e', 'w', 'n', 's']) :
      Stuck (first :: rest) (.unexpected (leadByte first))

variable {text : Text} {path : List Direction} {error : PathError}

theorem spell_cons (direction : Direction) (path : List Direction) :
    spell (direction :: path) = direction.name ++ spell path := rfl

theorem readPath_name_append (direction : Direction) (text : Text) :
    readPath (direction.name ++ text) = (readPath text).map (direction :: ·) := by
  cases direction <;> rfl

/-- A spelled path is read off the front of a text. -/
theorem readPath_spell_append (path : List Direction) (text : Text) :
    readPath (spell path ++ text) = (readPath text).map (path ++ ·) := by
  induction path with
  | nil =>
    have none : spell [] ++ text = text := rfl
    rw [none]
    cases readPath text <;> rfl
  | cons direction path ih =>
    rw [spell_cons, List.append_assoc, readPath_name_append, ih]
    cases readPath text <;> rfl

theorem readPath_spell (path : List Direction) : readPath (spell path) = .ok path := by
  have read := readPath_spell_append path []
  rw [List.append_nil] at read
  rw [read, readPath, Except.map, List.append_nil]

theorem readPath_of_stuck (stuck : Stuck text error) : readPath text = .error error := by
  cases stuck with
  | @unfinished first rest half other =>
    cases rest with
    | nil => obtain rfl | rfl := half <;> rfl
    | cons next rest =>
      obtain ⟨notEast, notWest⟩ := other next rfl
      obtain rfl | rfl := half <;> simp [readPath, notEast, notWest]
  | @unexpected first rest foreign =>
    simp only [List.mem_cons, List.not_mem_nil, or_false, not_or] at foreign
    obtain ⟨notEast, notWest, notNorth, notSouth⟩ := foreign
    rw [readPath]
    all_goals simp [notEast, notWest, notNorth, notSouth]

/-- A text is empty, starts with a name or starts with none. -/
theorem text_cases (text : Text) : text = [] ∨ (∃ direction rest, text = Direction.name direction ++ rest) ∨
    ∃ error, Stuck text error := by
  fun_cases readPath text
  case case1 => exact .inl rfl
  case case2 rest => exact .inr (.inl ⟨.east, rest, rfl⟩)
  case case3 rest => exact .inr (.inl ⟨.west, rest, rfl⟩)
  case case4 rest => exact .inr (.inl ⟨.northeast, rest, rfl⟩)
  case case5 rest => exact .inr (.inl ⟨.northwest, rest, rfl⟩)
  case case6 rest => exact .inr (.inl ⟨.southeast, rest, rfl⟩)
  case case7 rest => exact .inr (.inl ⟨.southwest, rest, rfl⟩)
  case case8 first rest _ _ northeast northwest southeast southwest half =>
    have half : first = 'n' ∨ first = 's' := by simpa using half
    refine .inr (.inr ⟨_, .unfinished half ?_⟩)
    intro next starts
    obtain ⟨more, rfl⟩ := List.head?_eq_some_iff.mp starts
    constructor
    · rintro rfl
      exact half.elim (northeast more · rfl) (southeast more · rfl)
    · rintro rfl
      exact half.elim (northwest more · rfl) (southwest more · rfl)
  case case9 first rest notEast notWest _ _ _ _ whole =>
    obtain ⟨notNorth, notSouth⟩ : first ≠ 'n' ∧ first ≠ 's' := by simpa using whole
    refine .inr (.inr ⟨_, .unexpected rest ?_⟩)
    simpa using ⟨notEast, notWest, notNorth, notSouth⟩

/-- Every text is a spelled path and a rest, which is empty unless no name starts it. -/
theorem exists_spell_append (text : Text) : ∃ before rest, text = spell before ++ rest ∧
    (rest = [] ∨ ∃ error, Stuck rest error) := by
  induction length : text.length using Nat.strongRecOn generalizing text with
  | ind size ih =>
    obtain rfl | ⟨direction, more, rfl⟩ | stuck := text_cases text
    · exact ⟨[], [], rfl, .inl rfl⟩
    · have shorter : more.length < size := by
        rw [← length, List.length_append]
        cases direction <;> simp [Direction.name]
      obtain ⟨before, rest, rfl, ends⟩ := ih _ shorter more rfl
      exact ⟨direction :: before, rest, by rw [spell_cons, List.append_assoc], ends⟩
    · exact ⟨[], text, rfl, .inr stuck⟩

/-- What reading gives, by the rest of the text after the path at its front. -/
theorem readPath_cases (text : Text) :
    (∃ path, text = spell path ∧ readPath text = .ok path) ∨
    ∃ before rest error, text = spell before ++ rest ∧ Stuck rest error ∧ readPath text = .error error := by
  obtain ⟨before, rest, rfl, rfl | ⟨error, stuck⟩⟩ := exists_spell_append text
  · rw [List.append_nil]
    exact .inl ⟨before, rfl, readPath_spell before⟩
  · refine .inr ⟨before, rest, error, rfl, stuck, ?_⟩
    rw [readPath_spell_append, readPath_of_stuck stuck, Except.map]

/-- Reading and spelling undo each other: a text is read exactly when it is the text of a path, and as
that path. Any other text is refused where it goes on with no name after the names at its front. -/
theorem readPath_undoes_spell (text : Text) :
    (∀ path, readPath (spell path) = .ok path) ∧
    (∀ path, readPath text = .ok path ↔ text = spell path) ∧
    ∀ error, readPath text = .error error ↔
      ∃ before rest, text = spell before ++ rest ∧ Stuck rest error := by
  refine ⟨readPath_spell, fun path => ⟨?_, ?_⟩, fun error => ⟨?_, ?_⟩⟩
  · intro read
    obtain ⟨found, spelled, same⟩ | ⟨_, _, _, _, _, refused⟩ := readPath_cases text
    · rwa [Except.ok.inj (read.symm.trans same)]
    · exact absurd (read.symm.trans refused) (by simp)
  · rintro rfl
    exact readPath_spell path
  · intro refused
    obtain ⟨_, _, read⟩ | ⟨before, rest, found, split, stuck, same⟩ := readPath_cases text
    · exact absurd (refused.symm.trans read) (by simp)
    · rw [Except.error.inj (refused.symm.trans same)]
      exact ⟨before, rest, split, stuck⟩
  · rintro ⟨before, rest, rfl, stuck⟩
    rw [readPath_spell_append, readPath_of_stuck stuck, Except.map]

-- A path that would go on to the north.
example : readPath "esen".toList = .error (.unfinished 'n') := rfl

end PuzzleCalendar.HexFloor
