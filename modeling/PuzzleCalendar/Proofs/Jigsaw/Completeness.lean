import PuzzleCalendar.Proofs.Jigsaw.Cleanness
import PuzzleCalendar.Proofs.Jigsaw.Placement

/-! # Assembling clean layouts

A box shows a layout when it holds the tiles of the layout in any order and orientation. It then shows
all symmetries of the layout too, and the first corner of the box starts one of them. After the cells of
a clean layout up to some place only the tile of the next cell fits, and only as it lies there. So the
assembly returns that symmetry, row by row.
-/

namespace PuzzleCalendar.Jigsaw

open Layout

/-- The box holds the tiles of a clean layout, each in some orientation. -/
structure Box.Shows (box : Box) {side : Nat} (layout : Layout box.size side) : Prop where
  clean : layout.Clean
  distinct : ∀ {row column otherRow otherColumn},
    (layout.tile row column).id = (layout.tile otherRow otherColumn).id →
      row = otherRow ∧ column = otherColumn
  counted : ∀ border, box.borderCount border = layout.borderCount border
  covered : ∀ source ∈ box.tiles, ∃ row column, source.Turned (layout.tile row column)
  found : ∀ row column, ∃ source ∈ box.tiles, source.Turned (layout.tile row column)

section Uses

variable {size side : Nat} {tiles turned : List (Tile size)}

theorem perm_borders_of_forall₂ (each : List.Forall₂ Tile.Turned tiles turned) :
    (tiles.flatMap Tile.borders).Perm (turned.flatMap Tile.borders) := by
  induction each with
  | nil => exact .rfl
  | cons first _ ih => exact first.perm_borders.symm.append ih

theorem exists_rel_of_mem {α β : Type} {Rel : α → β → Prop} {list : List α} {related : List β}
    (each : List.Forall₂ Rel list related) {one : α} (member : one ∈ list) :
    ∃ two ∈ related, Rel one two := by
  induction each with
  | nil => simp at member
  | cons first _ ih =>
    rcases List.mem_cons.mp member with rfl | later
    · exact ⟨_, List.mem_cons_self, first⟩
    · obtain ⟨two, inside, rel⟩ := ih later
      exact ⟨two, List.mem_cons_of_mem _ inside, rel⟩

theorem place_inj {row column otherRow otherColumn : Fin side}
    (same : place row column = place otherRow otherColumn) :
    row = otherRow ∧ column = otherColumn := by
  refine ⟨Fin.ext ?_, Fin.ext ?_⟩
  · rw [← place_div row column, same, place_div]
  · rw [← place_mod row column, same, place_mod]

/-- The box of the tiles that a clean layout uses shows it. -/
theorem shows_of_uses {layout : Layout size side} (uses : layout.Uses tiles)
    (distinct : (tiles.map Tile.id).Nodup) (clean : layout.Clean) :
    (Box.ofTiles tiles).Shows layout := by
  obtain ⟨turned, each, perm⟩ := uses
  have ids : (layout.tiles.map Tile.id).Nodup :=
    (perm.map Tile.id).nodup_iff.mp (Box.map_id_eq_of_forall₂ each ▸ distinct)
  refine ⟨clean, ?_, fun border => ?_, fun source member => ?_, fun row column => ?_⟩
  · intro row column otherRow otherColumn same
    have id_eq (row column : Fin side) :
        (layout.tiles.map Tile.id)[place row column]? = some (layout.tile row column).id := by
      rw [List.getElem?_map, getElem?_tiles, Option.map_some]
    have inside : place row column < (layout.tiles.map Tile.id).length := by
      simpa using place_lt row column
    exact place_inj ((List.getElem?_inj inside ids).mp (by rw [id_eq, id_eq, same]))
  · exact ((perm_borders_of_forall₂ each).trans (perm.flatMap_right Tile.borders)).count_eq border
  · obtain ⟨tile, inside, same⟩ := exists_rel_of_mem each member
    obtain ⟨row, column, rfl⟩ := layout.mem_tiles.mp (perm.mem_iff.mp inside)
    exact ⟨row, column, same⟩
  · have member := perm.mem_iff.mpr (layout.mem_tiles.mpr ⟨row, column, rfl⟩)
    have back : List.Forall₂ (Function.swap Tile.Turned) turned tiles := List.Forall₂.flip each
    exact exists_rel_of_mem back member

end Uses

namespace Box.Shows

variable {box : Box} {side : Nat} {layout : Layout box.size side}

theorem rotate (shows : box.Shows layout) : box.Shows layout.rotate where
  clean := shows.clean.rotate
  distinct same := by
    obtain ⟨columns, rows⟩ := shows.distinct same
    exact ⟨rows, Fin.rev_injective columns⟩
  counted border := by rw [shows.counted, borderCount_rotate]
  covered source member := by
    obtain ⟨row, column, turned⟩ := shows.covered source member
    refine ⟨column, row.rev, ?_⟩
    rw [tile_rotate, Fin.rev_rev]
    exact turned.rotate
  found row column := by
    obtain ⟨source, member, turned⟩ := shows.found column.rev row
    exact ⟨source, member, turned.rotate⟩

theorem flip (shows : box.Shows layout) : box.Shows layout.flip where
  clean := shows.clean.flip
  distinct same := by
    obtain ⟨rows, columns⟩ := shows.distinct same
    exact ⟨rows, Fin.rev_injective columns⟩
  counted border := by rw [shows.counted, borderCount_flip]
  covered source member := by
    obtain ⟨row, column, turned⟩ := shows.covered source member
    refine ⟨row, column.rev, ?_⟩
    rw [tile_flip, Fin.rev_rev]
    exact turned.flip
  found row column := by
    obtain ⟨source, member, turned⟩ := shows.found row column.rev
    exact ⟨source, member, turned.flip⟩

/-- Showing a layout is showing each of its symmetries. -/
theorem of_mem_symmetries (shows : box.Shows layout) {image : Layout box.size side}
    (member : image ∈ layout.symmetries) : box.Shows image :=
  images_induction (motive := fun image => box.Shows image) shows (fun _ => rotate) (fun _ => flip) member

theorem isOuter_iff (shows : box.Shows layout) {border : Border box.size} :
    box.isOuter border = true ↔ layout.borderCount border.canonical = 1 := by
  rw [isOuter, beq_iff_eq, shows.counted]

section Cells

variable {row column : Fin side}

/-- The number of a placed tile is that of an earlier cell. -/
theorem mem_take_iff {number : Nat} : number ∈ (layout.tiles.take (place row column)).map Tile.id ↔
    ∃ otherRow otherColumn, place otherRow otherColumn < place row column ∧
      (layout.tile otherRow otherColumn).id = number := by
  constructor
  · intro member
    obtain ⟨tile, taken, rfl⟩ := List.mem_map.mp member
    obtain ⟨index, found⟩ := List.mem_iff_getElem?.mp taken
    rw [List.getElem?_take] at found
    split at found
    · next before =>
      obtain ⟨otherRow, otherColumn, rfl⟩ := exists_place (before.trans (place_lt row column))
      rw [getElem?_tiles, Option.some_inj] at found
      exact ⟨otherRow, otherColumn, before, congrArg Tile.id found⟩
    · contradiction
  · rintro ⟨otherRow, otherColumn, before, rfl⟩
    refine List.mem_map.mpr ⟨_, List.mem_iff_getElem?.mpr ⟨place otherRow otherColumn, ?_⟩, rfl⟩
    rw [List.getElem?_take_of_lt before, getElem?_tiles]

theorem notMem_take (shows : box.Shows layout) :
    (layout.tile row column).id ∉ (layout.tiles.take (place row column)).map Tile.id := by
  intro used
  obtain ⟨otherRow, otherColumn, before, same⟩ := mem_take_iff.mp used
  obtain ⟨rfl, rfl⟩ := shows.distinct same
  exact lt_irrefl _ before

/-- After the cells before a cell, a fresh tile that fits is the one of the cell. -/
theorem eq_of_fits (shows : box.Shows layout) (large : 2 ≤ side)
    (later : row.val ≠ 0 ∨ column.val ≠ 0) {tile : Tile box.size} {source : Tile box.size}
    (member : source ∈ box.tiles) (turned : source.Turned tile)
    (fresh : tile.id ∉ (layout.tiles.take (place row column)).map Tile.id)
    (fits : box.fits (leftWanted side (layout.tiles.take (place row column)))
      (aboveWanted side (layout.tiles.take (place row column))) tile.picture = true) :
    tile = layout.tile row column := by
  obtain ⟨leftFits, topFits⟩ := fits_iff.mp fits
  obtain ⟨otherRow, otherColumn, ofLayout⟩ := shows.covered source member
  have shown : (layout.tile otherRow otherColumn).Turned tile := ofLayout.symm.trans turned
  have hasLeft : tile.picture.left.canonical ∈ layout.bordersAt (otherRow, otherColumn) :=
    shown.perm_borders.mem_iff.mp (by simp [Tile.borders])
  have hasTop : tile.picture.top.canonical ∈ layout.bordersAt (otherRow, otherColumn) :=
    shown.perm_borders.mem_iff.mp (by simp [Tile.borders])
  have leftOuter (first : column.val = 0) : layout.borderCount tile.picture.left.canonical = 1 := by
    rw [leftWanted_of_eq_zero layout first] at leftFits
    exact shows.isOuter_iff.mp leftFits
  have leftMeets {before : Fin side} (beside : before.val + 1 = column.val) :
      tile.picture.left = (layout.tile row column).picture.left := by
    rw [leftWanted_of_add_one_eq layout beside] at leftFits
    rw [← shows.clean.across row before column beside]
    exact beq_iff_eq.mp leftFits
  have topOuter (first : row.val = 0) : layout.borderCount tile.picture.top.canonical = 1 := by
    rw [aboveWanted_of_eq_zero layout first] at topFits
    exact shows.isOuter_iff.mp topFits
  have topMeets {above : Fin side} (onTop : above.val + 1 = row.val) :
      tile.picture.top = (layout.tile row column).picture.top := by
    rw [aboveWanted_of_add_one_eq layout onTop] at topFits
    rw [← shows.clean.down above row column onTop]
    exact beq_iff_eq.mp topFits
  -- The neighbour has the border too, and it is the only other tile that does; but it is placed.
  have here : (otherRow, otherColumn) = (row, column) := by
    by_cases first : column.val = 0
    · obtain ⟨above, onTop⟩ := exists_add_one_eq (later.resolve_right (not_not.mpr first))
      rw [topMeets onTop] at hasTop
      refine (shows.clean.cell_of_mem_top onTop hasTop).resolve_left fun same => ?_
      cases same
      refine absurd (mem_take_iff.mpr ⟨_, _, ?_, shown.1.symm⟩) fresh
      have := row.pos
      rw [place, place, ← onTop, Nat.succ_mul]
      omega
    · obtain ⟨before, beside⟩ := exists_add_one_eq first
      rw [leftMeets beside] at hasLeft
      refine (shows.clean.cell_of_mem_left beside hasLeft).resolve_left fun same => ?_
      cases same
      refine absurd (mem_take_iff.mpr ⟨_, _, ?_, shown.1.symm⟩) fresh
      unfold place
      omega
  cases here
  refine Tile.ext_picture shown.1 (shows.clean.eq_of_meets large later shown.2 leftOuter ?_ topOuter ?_)
  · intro beyond
    obtain ⟨before, beside⟩ := exists_add_one_eq beyond
    exact leftMeets beside
  · intro below
    obtain ⟨above, onTop⟩ := exists_add_one_eq below
    exact topMeets onTop

/-- The tile of a cell fits the cells before it. -/
theorem fits_tile (shows : box.Shows layout) (row column : Fin side) :
    box.fits (leftWanted side (layout.tiles.take (place row column)))
      (aboveWanted side (layout.tiles.take (place row column)))
      (layout.tile row column).picture = true := by
  refine fits_iff.mpr ⟨?_, ?_⟩
  · by_cases first : column.val = 0
    · rw [leftWanted_of_eq_zero layout first]
      exact shows.isOuter_iff.mpr (by rw [shows.clean.left, if_pos first])
    · obtain ⟨before, beside⟩ := exists_add_one_eq first
      rw [leftWanted_of_add_one_eq layout beside]
      exact beq_iff_eq.mpr (shows.clean.across row before column beside).symm
  · by_cases first : row.val = 0
    · rw [aboveWanted_of_eq_zero layout first]
      exact shows.isOuter_iff.mpr (by rw [shows.clean.top, if_pos first])
    · obtain ⟨above, onTop⟩ := exists_add_one_eq first
      rw [aboveWanted_of_add_one_eq layout onTop]
      exact beq_iff_eq.mpr (shows.clean.down above row column onTop).symm

/-- The assembly puts the tile of a cell after the cells before it. -/
theorem next?_eq (shows : box.Shows layout) (large : 2 ≤ side)
    (later : row.val ≠ 0 ∨ column.val ≠ 0) :
    box.next? (layout.tiles.take (place row column)).reverse
      (leftWanted side (layout.tiles.take (place row column)))
      (aboveWanted side (layout.tiles.take (place row column))) = some (layout.tile row column) := by
  have unique {tile : Tile box.size}
      (found : box.next? (layout.tiles.take (place row column)).reverse
        (leftWanted side (layout.tiles.take (place row column)))
        (aboveWanted side (layout.tiles.take (place row column))) = some tile) :
      tile = layout.tile row column := by
    obtain ⟨fresh, ⟨source, member, turned⟩, fits⟩ := of_next?_eq_some found
    rw [List.map_reverse, List.mem_reverse] at fresh
    exact shows.eq_of_fits large later member turned fresh fits
  obtain ⟨source, member, turned⟩ := shows.found row column
  have fresh : source.id ∉ ((layout.tiles.take (place row column)).reverse).map Tile.id := by
    rw [List.map_reverse, List.mem_reverse, ← turned.1]
    exact shows.notMem_take
  obtain ⟨tile, found⟩ := exists_next?_eq_some member fresh turned.2 (shows.fits_tile row column)
  rw [found, unique found]

/-- From the first cell on, the assembly goes on with the tiles of the layout. -/
theorem fill_eq (shows : box.Shows layout) (large : 2 ≤ side) {count number : Nat}
    (rest : number + count = side * side) (started : 0 < number) :
    box.fill side count (layout.tiles.take number).reverse = .ok layout.tiles := by
  -- The placed cells stay a beginning of the layout.
  induction count generalizing number with
  | zero =>
    rw [fill, List.reverse_reverse, List.take_of_length_le (by rw [length_tiles]; omega)]
  | succ count ih =>
    obtain ⟨row, column, rfl⟩ := exists_place (show number < side * side by omega)
    have later : row.val ≠ 0 ∨ column.val ≠ 0 := by
      by_contra first
      obtain ⟨rowZero, columnZero⟩ := not_or.mp first
      rw [place, not_not.mp rowZero, not_not.mp columnZero] at started
      omega
    have longer : layout.tiles.take (place row column) ++ [layout.tile row column] =
        layout.tiles.take (place row column + 1) := by
      rw [List.take_add_one, getElem?_tiles]
      rfl
    rw [fill_reverse, shows.next?_eq large later]
    simp only [longer]
    exact ih (by omega) (Nat.succ_pos _)

end Cells

section Corners

/-- The tiles that the box takes for corners are those of the corners of the layout. -/
theorem mem_corners_iff (shows : box.Shows layout) (large : 2 ≤ side) {source : Tile box.size}
    (member : source ∈ box.tiles) {row column : Fin side}
    (turned : source.Turned (layout.tile row column)) :
    source ∈ box.corners ↔ AtCorner row column := by
  have shared : (source.borders.filter fun border => 1 < box.borderCount border).length =
      (layout.tile row column).borders.countP fun border => 1 < layout.borderCount border := by
    rw [← List.countP_eq_length_filter, ← turned.perm_borders.countP_eq]
    simp only [shows.counted]
  have sides : (layout.tile row column).borders.countP (fun border => 1 < layout.borderCount border) =
      (if row.val = 0 then 0 else 1) + (if column.val + 1 = side then 0 else 1) +
        (if row.val + 1 = side then 0 else 1) + (if column.val = 0 then 0 else 1) := by
    have weight (outer : Prop) [Decidable outer] :
        (if decide (1 < if outer then 1 else 2) = true then 1 else 0) = if outer then 0 else 1 := by
      split <;> simp
    simp only [Tile.borders, List.map_cons, List.map_nil, List.countP_cons, List.countP_nil,
      shows.clean.top, shows.clean.right, shows.clean.bottom, shows.clean.left, weight]
    omega
  rw [corners, List.mem_filter, shared, sides, beq_iff_eq, AtCorner]
  simp only [member, true_and]
  split_ifs <;> omega

/-- Some symmetry of the layout begins with the tile of a corner. -/
theorem exists_symmetry_of_atCorner (positive : 0 < side) {row column : Fin side}
    (corner : AtCorner row column) : ∃ image ∈ layout.symmetries,
      (layout.tile row column).Turned (image.tile ⟨0, positive⟩ ⟨0, positive⟩) := by
  have once : layout.rotate ∈ layout.symmetries := squareMotions.turn_mem_images mem_images_self
  have twice := squareMotions.turn_mem_images once
  have thrice := squareMotions.turn_mem_images twice
  simp only [AtCorner, eq_or_eq_rev_iff positive] at corner
  obtain ⟨rfl | rfl, rfl | rfl⟩ := corner
  · exact ⟨layout, mem_images_self, .refl _⟩
  · refine ⟨_, thrice, ?_⟩
    simp only [tile_rotate, Fin.rev_rev]
    exact (Tile.Turned.refl _).rotate.rotate.rotate
  · exact ⟨_, once, (Tile.Turned.refl _).rotate⟩
  · exact ⟨_, twice, (Tile.Turned.refl _).rotate.rotate⟩

/-- The start of the assembly is the first tile of a symmetry of the layout. -/
theorem exists_symmetry_of_start (shows : box.Shows layout) (large : 2 ≤ side)
    {corner : Tile box.size} (member : corner ∈ box.corners) {picture : Picture box.size}
    (turned : picture ∈ corner.picture.orientations) (fits : box.fits none none picture = true) :
    ∃ image ∈ layout.symmetries, image.tile ⟨0, by omega⟩ ⟨0, by omega⟩ = { corner with picture } := by
  have inBox : corner ∈ box.tiles := List.mem_of_mem_filter member
  obtain ⟨row, column, ofLayout⟩ := shows.covered corner inBox
  have atCorner := (shows.mem_corners_iff large inBox ofLayout).mp member
  obtain ⟨image, symmetric, ofImage⟩ := exists_symmetry_of_atCorner (by omega) atCorner
  have same : corner.Turned (image.tile ⟨0, by omega⟩ ⟨0, by omega⟩) := ofLayout.trans ofImage
  have shown := shows.of_mem_symmetries symmetric
  obtain ⟨leftFits, topFits⟩ := fits_iff.mp fits
  have lies := shown.clean.eq_or_eq_of_outer (by simp only; omega)
    (Picture.squareMotions.images_trans (Picture.squareMotions.images_symm same.2) turned)
    (shown.isOuter_iff.mp leftFits) (shown.isOuter_iff.mp topFits)
  -- With rows and columns exchanged both sides stay outside, and the corner starts a mirrored layout.
  rcases lies with straight | exchanged
  · exact ⟨image, symmetric, Tile.ext_picture same.1 straight.symm⟩
  · refine ⟨image.rotate.flip,
      squareMotions.mirror_mem_images (squareMotions.turn_mem_images symmetric), ?_⟩
    rw [tile_flip, tile_rotate, Fin.rev_rev]
    exact Tile.ext_picture same.1 exchanged.symm

/-- A first corner turns so that it starts. -/
theorem exists_start (shows : box.Shows layout) (large : 2 ≤ side) :
    ∃ corner others picture, box.corners = corner :: others ∧
      corner.picture.orientations.find? (box.fits none none) = some picture := by
  obtain ⟨source, member, turned⟩ := shows.found ⟨0, by omega⟩ ⟨0, by omega⟩
  have atCorner : source ∈ box.corners :=
    (shows.mem_corners_iff large member turned).mpr ⟨.inl rfl, .inl rfl⟩
  cases corners : box.corners with
  | nil => simp [corners] at atCorner
  | cons corner others =>
    have first : corner ∈ box.corners := corners ▸ List.mem_cons_self
    have inBox : corner ∈ box.tiles := List.mem_of_mem_filter first
    obtain ⟨row, column, ofLayout⟩ := shows.covered corner inBox
    obtain ⟨image, symmetric, ofImage⟩ := exists_symmetry_of_atCorner (by omega)
      ((shows.mem_corners_iff large inBox ofLayout).mp first)
    have shown := shows.of_mem_symmetries symmetric
    have fits := shown.fits_tile ⟨0, by omega⟩ ⟨0, by omega⟩
    rw [leftWanted_of_eq_zero image rfl, aboveWanted_of_eq_zero image rfl] at fits
    have starts : (corner.picture.orientations.find? (box.fits none none)).isSome :=
      List.find?_isSome.mpr ⟨_, (ofLayout.trans ofImage).2, fits⟩
    obtain ⟨picture, start⟩ := Option.isSome_iff_exists.mp starts
    exact ⟨corner, others, picture, rfl, start⟩

end Corners

/-- The root of the number of tiles is found. -/
theorem side?_eq (positive : 0 < side) (full : box.tiles.length = side * side) :
    box.side? = some side := by
  have root : (List.range' 1 box.tiles.length).find? (fun root => box.tiles.length ≤ root * root) =
      some side := by
    rw [full, List.find?_range'_eq_some]
    refine ⟨decide_eq_true le_rfl, List.mem_range'_1.mpr ⟨by omega, ?_⟩, fun smaller _ below => ?_⟩
    · have := Nat.le_mul_self side
      omega
    · have := Nat.mul_self_lt_mul_self below
      simpa using this
  simp only [side?, root]
  exact if_pos full.symm

/-- A box that shows a layout is assembled into a symmetry of it. -/
theorem exists_assemble_eq (shows : box.Shows layout) (large : 2 ≤ side)
    (full : box.tiles.length = side * side) :
    ∃ image ∈ layout.symmetries, box.assemble = .ok (side, image.tiles) := by
  obtain ⟨corner, others, picture, corners, start⟩ := shows.exists_start large
  have first : corner ∈ box.corners := corners ▸ List.mem_cons_self
  obtain ⟨image, symmetric, begins⟩ := shows.exists_symmetry_of_start large first
    (List.mem_of_find?_eq_some start) (List.find?_some start)
  refine ⟨image, symmetric, assemble_eq_ok_iff.mpr
    ⟨side?_eq (by omega) full, corner, others, picture, corners, start, ?_⟩⟩
  have positive : 0 < side * side := Nat.mul_pos (by omega) (by omega)
  have one : (image.tiles.take 1).reverse = [{ corner with picture }] := by
    have origin : image.tiles[0]? = some { corner with picture } := by
      rw [← begins, ← image.getElem?_tiles]
      simp [place]
    rw [List.take_one, List.head?_eq_getElem?, origin]
    rfl
  rw [← one]
  exact (shows.of_mem_symmetries symmetric).fill_eq large (by omega) Nat.one_pos

/-- The tiles that a box which shows a layout takes for corners are those of its corners. -/
theorem perm_corners (shows : box.Shows layout) (large : 2 ≤ side)
    (distinct : (box.tiles.map Tile.id).Nodup) :
    (box.corners.map Tile.id).Perm ((layout.cornerTiles (by omega)).map Tile.id) := by
  have sublist : (box.corners.map Tile.id).Sublist (box.tiles.map Tile.id) :=
    List.filter_sublist.map Tile.id
  have corners : ((layout.cornerTiles (by omega)).map Tile.id).Nodup := by
    have different (row column otherRow otherColumn : Fin side)
        (apart : row ≠ otherRow ∨ column ≠ otherColumn) :
        (layout.tile row column).id ≠ (layout.tile otherRow otherColumn).id := by
      intro same
      obtain ⟨rows, columns⟩ := shows.distinct same
      exact apart.elim (· rows) (· columns)
    have ends : (⟨0, by omega⟩ : Fin side) ≠ Fin.rev ⟨0, by omega⟩ := by
      simp only [ne_eq, Fin.ext_iff, Fin.val_rev]
      omega
    simp [cornerTiles, different, ends, ends.symm]
  rw [List.perm_ext_iff_of_nodup (distinct.sublist sublist) corners]
  intro number
  simp only [List.mem_map, mem_cornerTiles]
  constructor
  · rintro ⟨source, chosen, rfl⟩
    have member : source ∈ box.tiles := List.mem_of_mem_filter chosen
    obtain ⟨row, column, turned⟩ := shows.covered source member
    exact ⟨_, ⟨row, column, (shows.mem_corners_iff large member turned).mp chosen, rfl⟩, turned.1⟩
  · rintro ⟨_, ⟨row, column, corner, rfl⟩, rfl⟩
    obtain ⟨source, member, turned⟩ := shows.found row column
    exact ⟨source, (shows.mem_corners_iff large member turned).mpr corner, turned.1.symm⟩

end Box.Shows

/-- Tiles with different numbers that a clean layout uses, in any order and orientation, are assembled
into one of the eight symmetries of that layout, and the tiles taken for corners are its four corners. -/
theorem assemble_of_clean {size side : Nat} {tiles : List (Tile size)} {layout : Layout size side}
    (large : 2 ≤ side) (uses : layout.Uses tiles) (distinct : (tiles.map Tile.id).Nodup)
    (clean : layout.Clean) :
    (∃ image ∈ layout.symmetries, (Box.ofTiles tiles).assemble = .ok (side, image.tiles)) ∧
      ((Box.ofTiles tiles).corners.map Tile.id).Perm
        ((layout.cornerTiles (by omega)).map Tile.id) := by
  have shows := shows_of_uses uses distinct clean
  have full : tiles.length = side * side := by
    obtain ⟨turned, each, perm⟩ := uses
    rw [each.length_eq, perm.length_eq, length_tiles]
  exact ⟨shows.exists_assemble_eq large full, shows.perm_corners large distinct⟩

section Example

/-- A tile of five rows, where `#` is lit. -/
private def tileOfRows (id : Nat) (rows : List String) : Tile 5 :=
  ⟨id, Picture.ofFn fun row column => rows[row.val]?.bind (·.toList[column.val]?) == some '#'⟩

/-- A clean layout. The border between the two upper tiles is the same in both directions. -/
private def mirrorJoint : Layout 5 2 where
  tile
    | 0, 0 => tileOfRows 11 ["###.#", "##.##", ".....", "..#.#", "..###"]
    | 0, 1 => tileOfRows 13 ["#.#.#", "#....", "..##.", "#..##", "#...#"]
    | 1, 0 => tileOfRows 17 ["..###", "...##", "#....", "..#.#", "#...."]
    | 1, 1 => tileOfRows 19 ["#...#", "####.", "..#.#", "#.###", ".#.#."]

/-- Its tiles, out of order and turned. -/
private def mirrorJointTiles : List (Tile 5) := [
  tileOfRows 19 [".#.##", "#..#.", ".###.", "##.#.", ".##.#"],
  tileOfRows 13 ["#...#", "#..##", "..##.", "#....", "#.#.#"],
  tileOfRows 17 [".#.##", "...##", ".#..#", ".....", "#.#.."],
  tileOfRows 11 ["##...", "##...", "#..##", ".#..#", "##.##"]]

private theorem uses_mirrorJoint : mirrorJoint.Uses mirrorJointTiles := by
  refine ⟨[mirrorJoint.tile 1 1, mirrorJoint.tile 0 1, mirrorJoint.tile 1 0, mirrorJoint.tile 0 0],
    ?_, by decide +kernel⟩
  unfold Tile.Turned
  decide +kernel

private theorem clean_mirrorJoint : mirrorJoint.Clean where
  across := by decide +kernel
  down := by decide +kernel
  top := by decide +kernel
  right := by decide +kernel
  bottom := by decide +kernel
  left := by decide +kernel

theorem assemble_mirrorJoint : mirrorJoint.Uses mirrorJointTiles ∧
    (mirrorJointTiles.map Tile.id).Nodup ∧ mirrorJoint.Clean ∧
    (∃ image ∈ mirrorJoint.symmetries,
      (Box.ofTiles mirrorJointTiles).assemble = .ok (2, image.tiles)) ∧
    ((Box.ofTiles mirrorJointTiles).corners.map Tile.id).Perm
      ((mirrorJoint.cornerTiles Nat.two_pos).map Tile.id) := by
  have distinct : (mirrorJointTiles.map Tile.id).Nodup := by decide
  exact ⟨uses_mirrorJoint, distinct, clean_mirrorJoint,
    assemble_of_clean le_rfl uses_mirrorJoint distinct clean_mirrorJoint⟩

end Example

end PuzzleCalendar.Jigsaw
