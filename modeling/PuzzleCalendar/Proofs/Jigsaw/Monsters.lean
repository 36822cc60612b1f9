import PuzzleCalendar.Puzzles.Jigsaw.Monster

/-! # Looking for monsters

A monster is looked for wherever its box lies in the picture, and all cells of a monster lie in its
box. So no look leaves the picture, and the search finds the cells that the monsters cover.
-/

namespace PuzzleCalendar.Jigsaw

/-- A search by looks that all succeed. -/
theorem findSomeM?_eq_some {α β : Type} {look : α → Option (Option β)} {seen : α → Option β}
    {items : List α} (succeeds : ∀ item ∈ items, look item = some (seen item)) :
    items.findSomeM? look = some (items.findSome? seen) := by
  induction items with
  | nil => rfl
  | cons item items ih =>
    obtain ⟨first, rest⟩ := List.forall_mem_cons.mp succeeds
    simp only [List.findSomeM?, first, List.findSome?_cons, Option.bind_eq_bind, Option.bind_some]
    cases seen item with
    | none => exact ih rest
    | some found => rfl

/-- A test by looks that all succeed. -/
theorem allM_eq_some {α : Type} {look : α → Option Bool} {seen : α → Bool} {items : List α}
    (succeeds : ∀ item ∈ items, look item = some (seen item)) :
    items.allM look = some (items.all seen) := by
  induction items with
  | nil => rfl
  | cons item items ih =>
    obtain ⟨first, rest⟩ := List.forall_mem_cons.mp succeeds
    simp only [List.allM, first, List.all_cons, Option.bind_eq_bind, Option.bind_some]
    cases seen item with
    | false => rfl
    | true => exact ih rest

/-- A change for each item that passes a test by looks that all succeed. -/
theorem foldlM_eq_some {α β : Type} {look : α → Option Bool} {seen : α → Bool} {items : List α}
    (succeeds : ∀ item ∈ items, look item = some (seen item)) (change : β → α → β) (start : β) :
    items.foldlM (fun held item => do if ← look item then pure (change held item) else pure held) start =
      some ((items.filter seen).foldl change start) := by
  induction items generalizing start with
  | nil => rfl
  | cons item items ih =>
    obtain ⟨first, rest⟩ := List.forall_mem_cons.mp succeeds
    simp only [List.foldlM_cons, first, List.filter_cons, Option.bind_eq_bind, Option.bind_some]
    cases seen item with
    | false => exact ih rest start
    | true => exact ih rest (change start item)

/-- The cells of a monster lie in its box. -/
theorem mem_monster_lt {cell : Nat × Nat} (member : cell ∈ monster) : cell.1 < 3 ∧ cell.2 < 20 := by
  revert cell
  decide

theorem mem_monsterPlaces {size : Nat} {place : Nat × Nat} :
    place ∈ monsterPlaces size ↔ place.1 + 3 ≤ size ∧ place.2 + 20 ≤ size := by
  obtain ⟨row, column⟩ := place
  simp only [monsterPlaces, List.mem_flatMap, List.mem_map, List.mem_range, Prod.mk.injEq]
  constructor
  · rintro ⟨_, rowBound, _, columnBound, rfl, rfl⟩
    omega
  · rintro ⟨rowBound, columnBound⟩
    exact ⟨row, by omega, column, by omega, rfl, rfl⟩

/-- Where the box of a monster lies in a picture, so do its cells. -/
theorem inside_of_mem_monsterAt {size : Nat} {place cell : Nat × Nat}
    (boxed : place ∈ monsterPlaces size) (member : cell ∈ monsterAt place) :
    cell.1 < size ∧ cell.2 < size := by
  obtain ⟨offset, ofMonster, rfl⟩ := List.mem_map.mp member
  have bounds := mem_monster_lt ofMonster
  have := mem_monsterPlaces.mp boxed
  dsimp only
  omega

namespace Picture

variable {size : Nat} (picture : Picture size)

/-- The places of the monsters of a picture. -/
def monsters : List (Nat × Nat) :=
  (monsterPlaces size).filter fun place =>
    (monsterAt place).all fun cell => picture.isLit cell.1 cell.2

/-- The cells that monsters cover, each of them once. -/
def monsterCells : List (Nat × Nat) :=
  picture.monsters.foldl (fun cells place => merged cells (monsterAt place)) []

theorem cell?_eq_some {row column : Nat} (inside : row < size ∧ column < size) :
    picture.cell? row column = some (picture.isLit row column) := by
  rw [cell?, isLit, dif_pos inside, dif_pos inside]

/-- A monster whose box lies in the picture is looked for within the picture. -/
theorem showsAt?_eq_some {place : Nat × Nat} (boxed : place ∈ monsterPlaces size) :
    picture.showsAt? place =
      some ((monsterAt place).all fun cell => picture.isLit cell.1 cell.2) :=
  allM_eq_some fun _ member => picture.cell?_eq_some (inside_of_mem_monsterAt boxed member)

/-- The search for monsters never leaves the picture. -/
theorem monsterCells?_eq_some : picture.monsterCells? = some picture.monsterCells :=
  foldlM_eq_some (fun _ boxed => picture.showsAt?_eq_some boxed) _ []

/-- The roughness without looks that could fail. -/
theorem roughness?_eq : picture.roughness? =
    match (picture.orientations.map monsterCells).find? fun cells => !cells.isEmpty with
    | none => some none
    | some cells => (Number.difference? picture.litCount cells.length).map some := by
  have first (pictures : List (Picture size)) :
      (pictures.findSome? fun turned =>
        if turned.monsterCells.isEmpty then none else some turned.monsterCells) =
      (pictures.map monsterCells).find? fun cells => !cells.isEmpty := by
    induction pictures with
    | nil => rfl
    | cons turned pictures ih =>
      rw [List.findSome?_cons, List.map_cons, List.find?_cons, ih]
      cases turned.monsterCells.isEmpty <;> rfl
  have looked (turned : Picture size) : (do
      let cells ← turned.monsterCells?
      pure (if cells.isEmpty then none else some cells)) =
      some (if turned.monsterCells.isEmpty then none else some turned.monsterCells) := by
    rw [monsterCells?_eq_some]
    rfl
  rw [roughness?, findSomeM?_eq_some fun turned _ => looked turned, first]
  rfl

end Picture

end PuzzleCalendar.Jigsaw
