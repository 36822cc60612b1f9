import Mathlib.Algebra.BigOperators.Fin
import PuzzleCalendar.Proofs.Jigsaw.Monsters
import PuzzleCalendar.Proofs.Jigsaw.Turning
import PuzzleCalendar.Proofs.Number.Sums

/-! # Roughness under turning and mirroring

All orientations of a picture light as many cells, and monsters cover lit cells only. Which orientation
is searched first depends on how the picture lies, so the roughness is the same for all of them exactly
when the orientations that show a monster cover equally many cells.
-/

namespace PuzzleCalendar.Jigsaw

open Finset

namespace Picture

variable {size : Nat} (picture : Picture size)

/-- The lit cells, counted row by row. -/
theorem litCount_eq_sum : picture.litCount = ∑ row, ∑ column, (picture.cell row column).toNat := by
  have counted (row : Vector Bool size) : row.toList.count true = ∑ column, (row.get column).toNat := by
    have cells : row.toList = List.ofFn row.get := by
      refine List.ext_getElem (by simp) fun place _ _ => ?_
      simp [Vector.get]
    have weights (cells : List Bool) : cells.count true = (cells.map Bool.toNat).sum := by
      induction cells with
      | nil => rfl
      | cons cell cells ih => cases cell <;> simp [ih, Nat.add_comm]
    rw [weights, cells, List.map_ofFn, List.sum_ofFn]
    rfl
  have rows : picture.rows.toList = List.ofFn picture.rows.get := by
    refine List.ext_getElem (by simp) fun place _ _ => ?_
    simp [Vector.get]
  simp only [litCount, Number.total_eq_sum, counted]
  rw [rows, List.map_ofFn, List.sum_ofFn]
  rfl

@[simp] theorem litCount_rotate : picture.rotate.litCount = picture.litCount := by
  simp only [litCount_eq_sum, cell_rotate]
  rw [sum_comm]
  exact Equiv.sum_comp Fin.revPerm fun row => ∑ column, (picture.cell row column).toNat

@[simp] theorem litCount_flip : picture.flip.litCount = picture.litCount := by
  simp only [litCount_eq_sum, cell_flip]
  exact sum_congr rfl fun row _ =>
    Equiv.sum_comp Fin.revPerm fun column => (picture.cell row column).toNat

variable {picture} {turned : Picture size}

theorem litCount_of_mem_orientations (member : turned ∈ picture.orientations) :
    turned.litCount = picture.litCount :=
  images_induction (motive := fun image => image.litCount = picture.litCount) rfl
    (fun image same => (litCount_rotate image).trans same)
    (fun image same => (litCount_flip image).trans same) member

/-- The orientations of an orientation are those of the picture. -/
theorem mem_orientations_of_mem (member : turned ∈ picture.orientations) {other : Picture size} :
    other ∈ turned.orientations ↔ other ∈ picture.orientations :=
  ⟨squareMotions.images_trans member, squareMotions.images_trans (squareMotions.images_symm member)⟩

theorem mem_monsters {place : Nat × Nat} : place ∈ picture.monsters ↔
    place ∈ monsterPlaces size ∧ ∀ cell ∈ monsterAt place, picture.isLit cell.1 cell.2 = true := by
  rw [monsters, List.mem_filter, List.all_eq_true]

/-- Monsters cover the cells of every box that shows one. -/
theorem mem_monsterCells {cell : Nat × Nat} :
    cell ∈ picture.monsterCells ↔ ∃ place ∈ picture.monsters, cell ∈ monsterAt place := by
  have fromAny (places cells : List (Nat × Nat)) :
      cell ∈ places.foldl (fun cells place => merged cells (monsterAt place)) cells ↔
        cell ∈ cells ∨ ∃ place ∈ places, cell ∈ monsterAt place := by
    induction places generalizing cells with
    | nil => simp
    | cons place places ih =>
      rw [List.foldl_cons, ih, mem_merged, or_assoc]
      simp only [List.mem_cons, exists_eq_or_imp]
  rw [monsterCells, fromAny]
  exact or_iff_right List.not_mem_nil

theorem nodup_monsterCells (picture : Picture size) : picture.monsterCells.Nodup := by
  have fromAny (places cells : List (Nat × Nat)) (distinct : cells.Nodup) :
      (places.foldl (fun cells place => merged cells (monsterAt place)) cells).Nodup := by
    induction places generalizing cells with
    | nil => exact distinct
    | cons place places ih =>
      rw [List.foldl_cons]
      exact ih _ (nodup_merged distinct (monsterAt place))
  exact fromAny picture.monsters [] List.nodup_nil

/-- The number of lit cells is that of the places that show one. -/
theorem litCount_eq_card (picture : Picture size) : picture.litCount =
    #{cell ∈ range size ×ˢ range size | picture.isLit cell.1 cell.2 = true} := by
  rw [litCount_eq_sum, card_filter, sum_product, sum_range]
  refine sum_congr rfl fun row _ => ?_
  rw [sum_range]
  refine sum_congr rfl fun column _ => ?_
  rw [isLit, dif_pos ⟨row.isLt, column.isLt⟩]
  cases picture.cell row column <;> rfl

/-- Monsters cover no more cells than are lit. -/
theorem length_monsterCells_le (picture : Picture size) :
    picture.monsterCells.length ≤ picture.litCount := by
  rw [← List.toFinset_card_of_nodup picture.nodup_monsterCells, litCount_eq_card]
  apply card_le_card
  intro cell covered
  obtain ⟨place, member, covers⟩ := mem_monsterCells.mp (List.mem_toFinset.mp covered)
  have lit := (mem_monsters.mp member).2 cell covers
  have inside : cell.1 < size ∧ cell.2 < size := by
    by_contra outside
    rw [isLit, dif_neg outside] at lit
    contradiction
  simp [inside, lit]

/-- The difference that the roughness takes never goes below zero. -/
theorem difference?_monsterCells (member : turned ∈ picture.orientations) :
    Number.difference? picture.litCount turned.monsterCells.length =
      some (picture.litCount - turned.monsterCells.length) := by
  apply if_pos
  rw [← litCount_of_mem_orientations member]
  exact turned.length_monsterCells_le

/-- The roughness leaves out what some orientation with a monster covers; without one there is none. -/
theorem roughness?_cases (picture : Picture size) :
    (∀ turned ∈ picture.orientations, turned.monsterCells = []) ∧ picture.roughness? = some none ∨
    ∃ turned ∈ picture.orientations, turned.monsterCells ≠ [] ∧
      picture.roughness? = some (some (picture.litCount - turned.monsterCells.length)) := by
  cases found : (picture.orientations.map monsterCells).find? fun cells => !cells.isEmpty with
  | none =>
    refine .inl ⟨fun turned member => ?_, by rw [roughness?_eq, found]⟩
    have empty := List.find?_eq_none.mp found _ (List.mem_map_of_mem member)
    simpa using empty
  | some cells =>
    obtain ⟨turned, member, rfl⟩ := List.mem_map.mp (List.mem_of_find?_eq_some found)
    have shows := List.find?_some found
    refine .inr ⟨turned, member, by simpa using shows, ?_⟩
    rw [roughness?_eq, found]
    exact congrArg (Option.map some) (difference?_monsterCells member)

/-- The mirror image searches the picture itself first. -/
theorem roughness?_flip (shows : picture.monsterCells ≠ []) :
    picture.flip.roughness? = some (some (picture.litCount - picture.monsterCells.length)) := by
  have first : ∃ rest, picture.flip.orientations = picture :: rest := ⟨_, by
    rw [orientations, List.flatMap_cons, flip_flip]
    rfl⟩
  obtain ⟨rest, first⟩ := first
  have itself : picture ∈ picture.flip.orientations := first ▸ List.mem_cons_self
  rw [roughness?_eq, first, List.map_cons, List.find?_cons_of_pos (by simpa using shows)]
  exact congrArg (Option.map some)
    ((difference?_monsterCells itself).trans (congrArg some (by rw [litCount_flip])))

/-- A picture has the same roughness however it is turned and mirrored exactly when all its orientations
that show a monster cover equally many cells. Whether it has a roughness at all never depends on how it
is turned. -/
theorem roughness?_turned_iff (picture : Picture size) :
    ((∀ turned ∈ picture.orientations, turned.roughness? = picture.roughness?) ↔
      ∀ one ∈ picture.orientations, ∀ two ∈ picture.orientations,
        one.monsterCells ≠ [] → two.monsterCells ≠ [] →
          one.monsterCells.length = two.monsterCells.length) ∧
    ∀ turned ∈ picture.orientations, turned.roughness? ≠ none ∧
      (turned.roughness? = some none ↔ ∀ other ∈ picture.orientations, other.monsterCells = []) := by
  refine ⟨⟨?_, ?_⟩, ?_⟩
  · intro same one oneMember two twoMember oneShows twoShows
    have mirrored (turned : Picture size) (member : turned ∈ picture.orientations)
        (shows : turned.monsterCells ≠ []) :
        picture.roughness? = some (some (picture.litCount - turned.monsterCells.length)) := by
      rw [← same _ (squareMotions.mirror_mem_images member), roughness?_flip shows,
        litCount_of_mem_orientations member]
    have differences := (mirrored one oneMember oneShows).symm.trans (mirrored two twoMember twoShows)
    simp only [Option.some.injEq] at differences
    have oneCovers := one.length_monsterCells_le
    have twoCovers := two.length_monsterCells_le
    rw [litCount_of_mem_orientations oneMember] at oneCovers
    rw [litCount_of_mem_orientations twoMember] at twoCovers
    omega
  · intro equal turned member
    rcases roughness?_cases picture with ⟨none, rough⟩ | ⟨one, oneMember, oneShows, rough⟩
    · rcases roughness?_cases turned with ⟨_, turnedRough⟩ | ⟨two, twoMember, twoShows, _⟩
      · rw [rough, turnedRough]
      · exact absurd (none two ((mem_orientations_of_mem member).mp twoMember)) twoShows
    · rcases roughness?_cases turned with ⟨none, _⟩ | ⟨two, twoMember, twoShows, turnedRough⟩
      · exact absurd (none one ((mem_orientations_of_mem member).mpr oneMember)) oneShows
      · rw [rough, turnedRough, litCount_of_mem_orientations member,
          equal one oneMember two ((mem_orientations_of_mem member).mp twoMember) oneShows twoShows]
  · intro turned member
    simp only [← mem_orientations_of_mem member]
    rcases roughness?_cases turned with ⟨none, rough⟩ | ⟨one, oneMember, oneShows, rough⟩
    · exact ⟨by rw [rough]; nofun, iff_of_true rough none⟩
    · refine ⟨by rw [rough]; nofun, iff_of_false (by rw [rough]; nofun) fun none => ?_⟩
      exact oneShows (none one oneMember)

/-- Three monsters one below another, which make up a fourth one when they are turned upside down. -/
def school : Picture 20 :=
  ofFn fun row column => [3, 5, 7].any fun top =>
    monster.any fun cell => top + cell.1 == row.val && cell.2 == column.val

/-- A picture all of whose lit cells are covered has no rough cell, but turned over it can show fewer monsters
first, and then the other cells are rough. -/
theorem roughness?_depends_on_turning : school.rotate.rotate ∈ school.flip.orientations ∧
    school.flip.roughness? = some (some 0) ∧ school.rotate.rotate.roughness? = some (some 30) := by
  have lit : school.litCount = 45 := by decide +kernel
  have all : school.monsterCells.length = 45 := by decide +kernel
  have fourth : school.rotate.rotate.flip.monsterCells.length = 15 := by decide +kernel
  refine ⟨?_, ?_, ?_⟩
  · rw [mem_orientations_of_mem (squareMotions.mirror_mem_images mem_images_self)]
    simp [orientations]
  · rw [roughness?_flip (List.ne_nil_of_length_eq_add_one all), lit, all]
  · rw [← flip_flip school.rotate.rotate, roughness?_flip (List.ne_nil_of_length_eq_add_one fourth), litCount_flip,
      litCount_rotate, litCount_rotate, lit, fourth]

end Picture

end PuzzleCalendar.Jigsaw
