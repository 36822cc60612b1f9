import PuzzleCalendar.Proofs.Jigsaw.Roughness

/-! # What monsters cover

A monster lies wherever all of its cells are cells of the picture and lit. The search covers exactly the
cells of these monsters, cells of several monsters once. All orientations light as many cells, so the
cells covered in any of them are no more than the picture lights.
-/

namespace PuzzleCalendar.Jigsaw

open Finset

namespace Picture

variable {size : Nat} (picture : Picture size)

/-- A monster lies at a place: its cells are all cells of the picture, and lit. -/
def Shows (place : Nat × Nat) : Prop :=
  ∀ cell ∈ monsterAt place, ∃ inside : cell.1 < size ∧ cell.2 < size,
    picture.cell ⟨cell.1, inside.1⟩ ⟨cell.2, inside.2⟩ = true

instance (place : Nat × Nat) : Decidable (picture.Shows place) :=
  inferInstanceAs (Decidable (∀ cell ∈ monsterAt place, _))

/-- The union of the cells of all monsters. -/
def covered : Finset (Nat × Nat) :=
  {place ∈ range size ×ˢ range size | picture.Shows place}.biUnion fun place =>
    (monsterAt place).toFinset

/-- The lit cells. -/
def lit : Finset (Fin size × Fin size) :=
  {cell | picture.cell cell.1 cell.2 = true}

variable {picture} {place cell : Nat × Nat}

theorem isLit_eq_true_iff : picture.isLit cell.1 cell.2 = true ↔
    ∃ inside : cell.1 < size ∧ cell.2 < size,
      picture.cell ⟨cell.1, inside.1⟩ ⟨cell.2, inside.2⟩ = true := by
  rw [isLit]
  split
  · rename_i inside
    constructor
    · intro lit
      exact ⟨inside, lit⟩
    · rintro ⟨_, lit⟩
      exact lit
  · rename_i outside
    refine iff_of_false Bool.false_ne_true ?_
    rintro ⟨inside, _⟩
    exact outside inside

/-- The cells of a monster reach to all sides of its box. -/
theorem Shows.boxed (shows : picture.Shows place) : place ∈ monsterPlaces size := by
  have reach (offset : Nat × Nat) (member : offset ∈ monster) :
      place.1 + offset.1 < size ∧ place.2 + offset.2 < size := by
    obtain ⟨inside, -⟩ := shows _ (List.mem_map_of_mem member)
    exact inside
  have below := (reach (2, 1) (by decide)).1
  have right := (reach (1, 19) (by decide)).2
  dsimp only at below right
  rw [mem_monsterPlaces]
  omega

theorem shows_iff_mem_monsters : picture.Shows place ↔ place ∈ picture.monsters := by
  rw [mem_monsters]
  simp only [isLit_eq_true_iff]
  exact ⟨fun shows => ⟨shows.boxed, shows⟩, fun found => found.2⟩

theorem mem_covered : cell ∈ picture.covered ↔ ∃ place, picture.Shows place ∧ cell ∈ monsterAt place := by
  simp only [covered, mem_biUnion, mem_filter, mem_product, mem_range, List.mem_toFinset]
  constructor
  · rintro ⟨place, ⟨-, shows⟩, covers⟩
    exact ⟨place, shows, covers⟩
  · rintro ⟨place, shows, covers⟩
    have boxed := mem_monsterPlaces.mp shows.boxed
    exact ⟨place, ⟨by omega, shows⟩, covers⟩

/-- The search covers what monsters cover. -/
theorem toFinset_monsterCells (picture : Picture size) :
    picture.monsterCells.toFinset = picture.covered := by
  ext cell
  simp only [List.mem_toFinset, mem_monsterCells, mem_covered, shows_iff_mem_monsters]

theorem length_monsterCells (picture : Picture size) :
    picture.monsterCells.length = picture.covered.card := by
  rw [← toFinset_monsterCells, List.toFinset_card_of_nodup picture.nodup_monsterCells]

theorem exists_mem_monsterAt (place : Nat × Nat) : ∃ cell, cell ∈ monsterAt place := by
  have first : (0, 18) ∈ monster := by decide
  exact ⟨_, List.mem_map_of_mem first⟩

/-- Nothing is covered exactly where no monster lies. -/
theorem isEmpty_monsterCells : picture.monsterCells.isEmpty = true ↔ ∀ place, ¬ picture.Shows place := by
  rw [List.isEmpty_iff, List.eq_nil_iff_forall_not_mem]
  simp only [mem_monsterCells, ← shows_iff_mem_monsters, not_exists, not_and]
  constructor
  · intro bare place shows
    obtain ⟨cell, covers⟩ := exists_mem_monsterAt place
    exact bare cell place shows covers
  · intro nowhere cell place shows
    exact absurd shows (nowhere place)

theorem litCount_eq_card_lit (picture : Picture size) : picture.litCount = picture.lit.card := by
  rw [litCount_eq_sum, lit, card_filter, Fintype.sum_prod_type]
  refine sum_congr rfl fun row _ => sum_congr rfl fun column _ => ?_
  cases picture.cell row column <;> rfl

/-- No orientation covers more cells than the picture lights. -/
theorem card_covered_le {turned : Picture size} (member : turned ∈ picture.orientations) :
    turned.covered.card ≤ picture.lit.card := by
  rw [← length_monsterCells, ← litCount_eq_card_lit, ← litCount_of_mem_orientations member]
  exact turned.length_monsterCells_le

/-- The orientation is the first one that shows a monster. -/
def FirstToShow (picture turned : Picture size) : Prop :=
  ∃ before after, picture.orientations = before ++ turned :: after ∧
    (∀ other ∈ before, ∀ place, ¬ other.Shows place) ∧ ∃ place, turned.Shows place

theorem FirstToShow.mem {turned : Picture size} (first : picture.FirstToShow turned) :
    turned ∈ picture.orientations := by
  obtain ⟨before, after, split, -⟩ := first
  simp [split]

/-- The search stops at the first orientation that shows a monster. -/
theorem firstToShow_iff {turned : Picture size} : picture.FirstToShow turned ↔
    (picture.orientations.find? fun other => !other.monsterCells.isEmpty) = some turned := by
  rw [List.find?_eq_some_iff_append]
  simp only [Bool.not_eq_true', Bool.not_not, isEmpty_monsterCells, ← Bool.not_eq_true]
  push Not
  constructor
  · rintro ⟨before, after, split, nowhere, somewhere⟩
    exact ⟨somewhere, before, after, split, nowhere⟩
  · rintro ⟨somewhere, before, after, split, nowhere⟩
    exact ⟨before, after, split, nowhere, somewhere⟩

/-- The roughness counts the cells that the first orientation with a monster leaves. -/
theorem FirstToShow.roughness?_eq {turned : Picture size} (first : picture.FirstToShow turned) :
    picture.roughness? = some (some (picture.lit.card - turned.covered.card)) := by
  have found := firstToShow_iff.mp first
  have searched : (picture.orientations.map monsterCells).find? (fun cells => !cells.isEmpty) =
      some turned.monsterCells := by
    rw [List.find?_map]
    exact congrArg (Option.map monsterCells) found
  rw [Picture.roughness?_eq, searched, ← length_monsterCells, ← litCount_eq_card_lit]
  exact congrArg (Option.map some) (difference?_monsterCells first.mem)

/-- Some orientation is the first to show a monster, or none shows one. -/
theorem firstToShow_or_none (picture : Picture size) : (∃ turned, picture.FirstToShow turned) ∨
    (∀ turned ∈ picture.orientations, ∀ place, ¬ turned.Shows place) ∧
      picture.roughness? = some none := by
  cases found : picture.orientations.find? fun other => !other.monsterCells.isEmpty with
  | some turned => exact .inl ⟨turned, firstToShow_iff.mpr found⟩
  | none =>
    right
    have searched : (picture.orientations.map monsterCells).find? (fun cells => !cells.isEmpty) =
        none := by
      rw [List.find?_map]
      exact congrArg (Option.map monsterCells) found
    refine ⟨fun turned member => ?_, by rw [Picture.roughness?_eq, searched]⟩
    have bare := List.find?_eq_none.mp found turned member
    exact isEmpty_monsterCells.mp (by simpa using bare)

/-- The search for monsters looks at no cell outside the picture and finds exactly the union of the
cells of all monsters. There is no roughness exactly when no orientation shows a monster; otherwise it
is the number of lit cells less the size of that union in the first orientation that shows one. No
orientation covers more cells than are lit. -/
theorem roughness?_exact (picture : Picture size) :
    (∃ cells, picture.monsterCells? = some cells ∧ cells.Nodup ∧ cells.toFinset = picture.covered) ∧
    (∀ cell, cell ∈ picture.covered ↔ ∃ place, picture.Shows place ∧ cell ∈ monsterAt place) ∧
    picture.roughness? ≠ none ∧
    (picture.roughness? = some none ↔
      ∀ turned ∈ picture.orientations, ∀ place, ¬ turned.Shows place) ∧
    (∀ rough, picture.roughness? = some (some rough) ↔
      ∃ turned, picture.FirstToShow turned ∧ rough + turned.covered.card = picture.lit.card) ∧
    ∀ turned ∈ picture.orientations, turned.covered.card ≤ picture.lit.card := by
  refine ⟨⟨_, picture.monsterCells?_eq_some, picture.nodup_monsterCells, picture.toFinset_monsterCells⟩,
    fun cell => mem_covered, ?_, ?_, ?_, fun turned => card_covered_le⟩
  · rcases picture.firstToShow_or_none with ⟨turned, first⟩ | ⟨-, rough⟩
    · rw [first.roughness?_eq]
      nofun
    · rw [rough]
      nofun
  · rcases picture.firstToShow_or_none with ⟨turned, first⟩ | ⟨nowhere, rough⟩
    · rw [first.roughness?_eq]
      refine iff_of_false nofun fun nowhere => ?_
      have member := first.mem
      obtain ⟨-, -, -, -, place, shows⟩ := first
      exact nowhere turned member place shows
    · exact iff_of_true rough nowhere
  · intro rough
    constructor
    · intro counted
      rcases picture.firstToShow_or_none with ⟨turned, first⟩ | ⟨-, none⟩
      · have fewer := card_covered_le first.mem
        rw [first.roughness?_eq, Option.some_inj, Option.some_inj] at counted
        exact ⟨turned, first, by omega⟩
      · rw [none] at counted
        cases counted
    · rintro ⟨turned, first, counted⟩
      rw [first.roughness?_eq, ← counted, Nat.add_sub_cancel]

end Picture

end PuzzleCalendar.Jigsaw
