import PuzzleCalendar.Outcome
import PuzzleCalendar.Proofs.Jigsaw.Layout

/-! # Placing tiles

The assembly keeps what it has placed with the latest tile first. Read row by row, every tile comes from
the box, no number comes twice, and each tile fits the borders to its left and above it, or the outside
where there are none. One placed tile keeps this, so a whole assembly does. As many tiles as the box
holds, with different numbers, are then all of its tiles, and the borders that touch are equal.
-/

namespace PuzzleCalendar.Jigsaw

namespace Box

open Layout

variable {box : Box} {side : Nat}

/-- The border that the tile after `cells` meets on its left. -/
def leftWanted (side : Nat) (cells : List (Tile box.size)) : Option (Border box.size) :=
  if cells.length % side = 0 then none else cells[cells.length - 1]?.map (·.picture.right)

/-- The border that the tile after `cells` meets above. -/
def aboveWanted (side : Nat) (cells : List (Tile box.size)) : Option (Border box.size) :=
  if cells.length / side = 0 then none else cells[cells.length - side]?.map (·.picture.bottom)

theorem leftBorder?_reverse (cells : List (Tile box.size)) :
    leftBorder? side cells.reverse = leftWanted side cells := by
  rw [leftBorder?, leftWanted]
  simp only [List.length_reverse]
  split
  · rfl
  · rw [List.head_reverse, ← List.getLast?_eq_getElem?, List.getLast?_eq_some_getLast, Option.map_some]

theorem aboveBorder?_reverse (cells : List (Tile box.size)) :
    aboveBorder? side cells.reverse = aboveWanted side cells := by
  rw [aboveBorder?, aboveWanted]
  simp only [List.length_reverse]
  split
  · rfl
  · next later =>
    obtain ⟨positive, within⟩ := Nat.div_ne_zero_iff.mp later
    have place : cells.length - 1 - (side - 1) = cells.length - side := by omega
    rw [List.get_eq_getElem, List.getElem_reverse, List.getElem?_eq_getElem (by omega), Option.map_some]
    simp only [place]

/-- One further tile after some cells. -/
theorem fill_reverse (count : Nat) (cells : List (Tile box.size)) :
    box.fill side (count + 1) cells.reverse =
      match box.next? cells.reverse (leftWanted side cells) (aboveWanted side cells) with
      | none => .error (.nothingFits (cells.length / side) (cells.length % side))
      | some tile => box.fill side count (cells ++ [tile]).reverse := by
  rw [fill, leftBorder?_reverse, aboveBorder?_reverse, List.length_reverse]
  cases box.next? cells.reverse (leftWanted side cells) (aboveWanted side cells) with
  | none => rfl
  | some tile => exact congrArg (box.fill side count) List.reverse_concat.symm

/-- The next tile has a number of its own, comes from the box and fits. -/
theorem of_next?_eq_some {placed : List (Tile box.size)} {left above : Option (Border box.size)}
    {tile : Tile box.size} (found : box.next? placed left above = some tile) :
    tile.id ∉ placed.map Tile.id ∧ (∃ source ∈ box.tiles, source.Turned tile) ∧
      box.fits left above tile.picture = true := by
  obtain ⟨source, member, chosen⟩ := List.exists_of_findSome?_eq_some found
  split at chosen
  · contradiction
  · next fresh =>
    obtain ⟨picture, turned, rfl⟩ := Option.map_eq_some_iff.mp chosen
    refine ⟨fun used => fresh ?_, ⟨source, member, rfl, List.mem_of_find?_eq_some turned⟩,
      List.find?_some turned⟩
    obtain ⟨other, placed, same⟩ := List.mem_map.mp used
    exact List.any_eq_true.mpr ⟨other, placed, beq_iff_eq.mpr same⟩

/-- A tile of the box with a number of its own that fits in some orientation is enough for a next
tile. -/
theorem exists_next?_eq_some {placed : List (Tile box.size)} {left above : Option (Border box.size)}
    {source : Tile box.size} {picture : Picture box.size} (member : source ∈ box.tiles)
    (fresh : source.id ∉ placed.map Tile.id) (turned : picture ∈ source.picture.orientations)
    (fits : box.fits left above picture = true) : ∃ tile, box.next? placed left above = some tile := by
  rw [← Option.isSome_iff_exists, next?, List.findSome?_isSome_iff]
  refine ⟨source, member, ?_⟩
  have unused : ¬ placed.any (fun other => other.id == source.id) = true := by
    intro used
    obtain ⟨other, inside, same⟩ := List.any_eq_true.mp used
    exact fresh (List.mem_map.mpr ⟨other, inside, beq_iff_eq.mp same⟩)
  rw [if_neg unused, Option.isSome_map, List.find?_isSome]
  exact ⟨picture, turned, fits⟩

/-- What an assembly has placed so far. -/
structure Arranged (box : Box) (side : Nat) (cells : List (Tile box.size)) : Prop where
  turned : ∀ tile ∈ cells, ∃ source ∈ box.tiles, source.Turned tile
  distinct : (cells.map Tile.id).Nodup
  fitting : ∀ number tile, cells[number]? = some tile →
    box.fits (leftWanted side (cells.take number)) (aboveWanted side (cells.take number))
      tile.picture = true

/-- A further tile that fits keeps what is placed arranged. -/
theorem Arranged.concat {cells : List (Tile box.size)} {tile : Tile box.size}
    (arranged : box.Arranged side cells)
    (found : box.next? cells.reverse (leftWanted side cells) (aboveWanted side cells) = some tile) :
    box.Arranged side (cells ++ [tile]) := by
  obtain ⟨fresh, source, fits⟩ := of_next?_eq_some found
  refine ⟨?_, ?_, fun number other there => ?_⟩
  · intro other member
    rcases List.mem_append.mp member with before | last
    · exact arranged.turned other before
    · exact List.mem_singleton.mp last ▸ source
  · rw [List.map_append, List.map_singleton, ← List.concat_eq_append, List.nodup_concat]
    rw [List.map_reverse, List.mem_reverse] at fresh
    exact ⟨fresh, arranged.distinct⟩
  · rcases Nat.lt_trichotomy number cells.length with before | rfl | beyond
    · rw [List.getElem?_append_left before] at there
      rw [List.take_append_of_le_length before.le]
      exact arranged.fitting number other there
    · rw [List.getElem?_concat_length, Option.some_inj] at there
      rw [List.take_left', ← there]
      · exact fits
      · rfl
    · rw [List.getElem?_eq_none (by rw [List.length_append, List.length_singleton]; omega)] at there
      contradiction

/-- Filling up keeps what is placed arranged. -/
theorem arranged_of_fill {count : Nat} {cells placed : List (Tile box.size)}
    (arranged : box.Arranged side cells) (filled : box.fill side count cells.reverse = .ok placed) :
    box.Arranged side placed ∧ placed.length = cells.length + count := by
  induction count generalizing cells with
  | zero =>
    rw [fill, List.reverse_reverse] at filled
    cases filled
    exact ⟨arranged, rfl⟩
  | succ count ih =>
    rw [fill_reverse] at filled
    split at filled
    · contradiction
    · next tile found =>
      obtain ⟨whole, length⟩ := ih (arranged.concat found) filled
      refine ⟨whole, ?_⟩
      rw [length, List.length_append, List.length_singleton]
      omega

/-- The side of the square is the root of the number of tiles. -/
theorem of_side?_eq_some (found : box.side? = some side) :
    0 < side ∧ side * side = box.tiles.length := by
  unfold side? at found
  split at found
  · next chosen first =>
    split at found
    · next square =>
      cases found
      have range := List.mem_range'_1.mp (List.mem_of_find?_eq_some first)
      exact ⟨by omega, square⟩
    · contradiction
  · contradiction

/-- An assembly starts with the first corner and fills up the square. -/
theorem assemble_eq_ok_iff {placed : List (Tile box.size)} :
    box.assemble = .ok (side, placed) ↔ box.side? = some side ∧
      ∃ corner others picture, box.corners = corner :: others ∧
        corner.picture.orientations.find? (box.fits none none) = some picture ∧
        box.fill side (side * side - 1) [{ corner with picture }] = .ok placed := by
  cases root : box.side? with
  | none =>
    have failed : box.assemble = .error (.notSquare box.tiles.length) := by
      simp only [assemble, root]
      rfl
    simp [failed]
  | some known =>
    cases corners : box.corners with
    | nil =>
      have failed : box.assemble = .error .noCorner := by
        simp only [assemble, root, corners]
        rfl
      simp [failed]
    | cons corner others =>
      cases start : corner.picture.orientations.find? (box.fits none none) with
      | none =>
        have failed : box.assemble = .error (.cornerTurnsNowhere corner.id) := by
          simp only [assemble, root, corners, pure_bind, start]
          rfl
        rw [failed]
        simp only [reduceCtorEq, false_iff]
        rintro ⟨_, _, _, picture, same, turned, _⟩
        cases same
        rw [start] at turned
        contradiction
      | some picture =>
        have filled : box.assemble =
            (box.fill known (known * known - 1) [{ corner with picture }]).map (known, ·) := by
          simp only [assemble, root, corners, pure_bind, start]
          rfl
        rw [filled, map_eq_ok_iff]
        constructor
        · rintro ⟨cells, done, same⟩
          cases same
          exact ⟨rfl, corner, others, picture, rfl, start, done⟩
        · rintro ⟨same, _, _, _, isCorner, turned, done⟩
          cases same
          cases isCorner
          rw [start, Option.some_inj] at turned
          cases turned
          exact ⟨placed, done, rfl⟩

/-- What an assembly returns fills a square with as many tiles as the box holds. -/
theorem arranged_of_assemble {placed : List (Tile box.size)}
    (assembled : box.assemble = .ok (side, placed)) :
    side * side = box.tiles.length ∧ placed.length = side * side ∧ box.Arranged side placed := by
  obtain ⟨root, corner, others, picture, corners, start, filled⟩ := assemble_eq_ok_iff.mp assembled
  obtain ⟨positive, square⟩ := of_side?_eq_some root
  have first : box.Arranged side [{ corner with picture }] := by
    refine ⟨fun tile member => ?_, List.nodup_singleton _, fun number tile there => ?_⟩
    · have ofBox : corner ∈ box.corners := corners ▸ List.mem_cons_self
      rw [List.mem_singleton.mp member]
      exact ⟨corner, List.mem_of_mem_filter ofBox, rfl, List.mem_of_find?_eq_some start⟩
    · cases number with
      | zero =>
        cases there
        have fits : box.fits none none picture = true := List.find?_some start
        simpa [leftWanted, aboveWanted] using fits
      | succ number => contradiction
  obtain ⟨arranged, length⟩ := arranged_of_fill first filled
  refine ⟨square, ?_, arranged⟩
  have := Nat.mul_pos positive positive
  rw [length, List.length_singleton]
  omega

section Cells

variable (layout : Layout box.size side) {row column : Fin side}

theorem length_take_place : (layout.tiles.take (place row column)).length = place row column := by
  rw [List.length_take, length_tiles, Nat.min_eq_left (place_lt row column).le]

theorem leftWanted_of_eq_zero (first : column.val = 0) :
    leftWanted side (layout.tiles.take (place row column)) = none := by
  rw [leftWanted, length_take_place, place_mod, if_pos first]

theorem leftWanted_of_add_one_eq {before : Fin side} (beside : before.val + 1 = column.val) :
    leftWanted side (layout.tiles.take (place row column)) =
      some (layout.tile row before).picture.right := by
  have latest : place row column - 1 = place row before := by
    unfold place
    omega
  rw [leftWanted, length_take_place, place_mod, if_neg (by omega), latest, List.getElem?_take_of_lt,
    getElem?_tiles, Option.map_some]
  unfold place
  omega

theorem aboveWanted_of_eq_zero (first : row.val = 0) :
    aboveWanted side (layout.tiles.take (place row column)) = none := by
  rw [aboveWanted, length_take_place, place_div, if_pos first]

theorem aboveWanted_of_add_one_eq {above : Fin side} (onTop : above.val + 1 = row.val) :
    aboveWanted side (layout.tiles.take (place row column)) =
      some (layout.tile above column).picture.bottom := by
  have positive := row.pos
  have back : place row column = place above column + side := by
    rw [place, place, ← onTop, Nat.succ_mul]
    omega
  have latest : place row column - side = place above column := by omega
  rw [aboveWanted, length_take_place, place_div, if_neg (by omega), latest, List.getElem?_take_of_lt,
    getElem?_tiles, Option.map_some]
  omega

theorem fits_iff {left above : Option (Border box.size)} {picture : Picture box.size} :
    box.fits left above picture = true ↔
      fits.side box left picture.left = true ∧ fits.side box above picture.top = true :=
  Bool.and_eq_true_iff

variable {layout}

theorem Arranged.fits (arranged : box.Arranged side layout.tiles) (row column : Fin side) :
    fits.side box (leftWanted side (layout.tiles.take (place row column)))
        (layout.tile row column).picture.left = true ∧
      fits.side box (aboveWanted side (layout.tiles.take (place row column)))
        (layout.tile row column).picture.top = true :=
  fits_iff.mp (arranged.fitting _ _ (layout.getElem?_tiles row column))

/-- Arranged tiles have equal borders where they touch. -/
theorem Arranged.joined (arranged : box.Arranged side layout.tiles) : layout.Joined where
  across row column next beside := by
    have fits := (arranged.fits row next).1
    rw [leftWanted_of_add_one_eq layout beside] at fits
    exact (beq_iff_eq.mp fits).symm
  down row below column onTop := by
    have fits := (arranged.fits below column).2
    rw [aboveWanted_of_add_one_eq layout onTop] at fits
    exact (beq_iff_eq.mp fits).symm

theorem Arranged.isOuter_left (arranged : box.Arranged side layout.tiles) (first : column.val = 0) :
    box.isOuter (layout.tile row column).picture.left = true := by
  have fits := (arranged.fits row column).1
  rwa [leftWanted_of_eq_zero layout first] at fits

theorem Arranged.isOuter_top (arranged : box.Arranged side layout.tiles) (first : row.val = 0) :
    box.isOuter (layout.tile row column).picture.top = true := by
  have fits := (arranged.fits row column).2
  rwa [aboveWanted_of_eq_zero layout first] at fits

end Cells

section Sources

variable {size : Nat} {tiles cells : List (Tile size)}

/-- Cells that come from some tiles come from a list of them. -/
theorem exists_sources (turned : ∀ tile ∈ cells, ∃ source ∈ tiles, source.Turned tile) :
    ∃ sources, List.Forall₂ Tile.Turned sources cells ∧ sources ⊆ tiles := by
  induction cells with
  | nil => exact ⟨[], .nil, List.nil_subset _⟩
  | cons cell cells ih =>
    obtain ⟨⟨source, member, first⟩, rest⟩ := List.forall_mem_cons.mp turned
    obtain ⟨sources, others, subset⟩ := ih rest
    exact ⟨source :: sources, .cons first others, List.cons_subset.mpr ⟨member, subset⟩⟩

theorem map_id_eq_of_forall₂ (turned : List.Forall₂ Tile.Turned tiles cells) :
    tiles.map Tile.id = cells.map Tile.id := by
  induction turned with
  | nil => rfl
  | cons first _ ih => rw [List.map_cons, List.map_cons, ih, first.1]

end Sources

/-- Arranged tiles that are as many as those of the box use each tile of the box once, and the tiles
of the box have different numbers. -/
theorem Arranged.uses {layout : Layout box.size side} (arranged : box.Arranged side layout.tiles)
    (full : side * side = box.tiles.length) :
    layout.Uses box.tiles ∧ (box.tiles.map Tile.id).Nodup := by
  obtain ⟨sources, turned, subset⟩ := exists_sources arranged.turned
  have distinct : (sources.map Tile.id).Nodup := map_id_eq_of_forall₂ turned ▸ arranged.distinct
  have length : sources.length = box.tiles.length := by
    rw [turned.length_eq, length_tiles, full]
  -- Different numbers make the sources different, and there are as many as the box holds.
  have all : sources.Perm box.tiles :=
    (List.subperm_of_subset distinct.of_map subset).perm_of_length_le length.ge
  exact ⟨List.perm_comp_forall₂ all.symm turned, (all.map Tile.id).nodup_iff.mp distinct⟩

end Box

end PuzzleCalendar.Jigsaw
