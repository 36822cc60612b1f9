import Mathlib.Data.List.OfFn
import PuzzleCalendar.Proofs.Jigsaw.Placement
import PuzzleCalendar.Puzzles.Jigsaw

/-! # Stitching tiles

The whole picture is written row by row: the rows of the tiles, without their borders, next to and below
each other. As the tiles fill the square, these rows are as many and as long as they have to be, and each
cell of the picture is one inside the tile that lies there. Together with what an assembly has placed this
says what any assembly of a box that can be read returns.
-/

namespace PuzzleCalendar.Jigsaw

/-- A list over pairs of numbers is made of one block for each first number. -/
theorem ofFn_divNat_modNat {α : Type} {blocks size : Nat} (cell : Fin blocks → Fin size → α) :
    (List.ofFn fun place : Fin (blocks * size) => cell place.divNat place.modNat) =
      (List.ofFn fun block => List.ofFn fun place => cell block place).flatten := by
  rw [List.ofFn_mul]
  refine congrArg List.flatten (congrArg List.ofFn (funext fun block =>
    congrArg List.ofFn (funext fun place => ?_)))
  have quotient : (block.val * size + place.val) / size = block.val := by
    rw [Nat.mul_comm, Nat.mul_add_div place.pos, Nat.div_eq_of_lt place.isLt, Nat.add_zero]
  have remainder : (block.val * size + place.val) % size = place.val := by
    rw [Nat.mul_comm, Nat.mul_add_mod, Nat.mod_eq_of_lt place.isLt]
  exact congrArg₂ cell (Fin.ext quotient) (Fin.ext remainder)

namespace Picture

variable {size : Nat}

/-- A row of a picture without its border. -/
theorem extract_row (picture : Picture size) (row : Fin size) :
    (picture.rows.get row).toList.extract 1 (size - 1) =
      List.ofFn fun column : Fin (size - 2) => picture.cell row (inside column) := by
  refine List.ext_getElem ?_ fun column within _ => ?_
  · simp
    omega
  · simp [cell, inside, Vector.get]

/-- The rows of cells give the picture back. -/
theorem ofRows?_ofFn (cell : Fin size → Fin size → Bool) :
    ofRows? size (List.ofFn fun row => List.ofFn fun column => cell row column) = some (ofFn cell) := by
  have square : ∀ row ∈ List.ofFn (fun row => List.ofFn fun column => cell row column), row.length = size := by
    intro row member
    obtain ⟨_, rfl⟩ := List.mem_ofFn.mp member
    exact List.length_ofFn
  rw [ofRows?, if_pos ⟨List.length_ofFn, square⟩]
  congr 1
  apply ext_cell
  simp

theorem rows_ofFn (cell : Fin size → Fin size → Bool) : (ofFn cell).rows.toList.map Vector.toList =
    List.ofFn fun row => List.ofFn fun column => cell row column := by
  refine List.ext_getElem (by simp) fun row _ _ => ?_
  refine List.ext_getElem (by simp) fun column _ _ => ?_
  simp [ofFn]

end Picture

namespace Layout

variable {size side : Nat} (layout : Layout size side)

/-- The rows of the tiles without their borders, next to and below each other. -/
def joinedRows : List (List Bool) :=
  (List.ofFn fun row : Fin side => List.ofFn fun line : Fin (size - 2) =>
    (List.ofFn fun column : Fin side =>
      ((layout.tile row column).picture.rows.get (inside line)).toList.extract 1 (size - 1)).flatten).flatten

/-- The cell of the whole picture at a place, which lies inside one tile. -/
def wholeCell (row column : Fin (side * (size - 2))) : Bool :=
  (layout.tile row.divNat column.divNat).picture.cell (inside row.modNat) (inside column.modNat)

/-- The tiles of a row stand together. -/
theorem take_drop_tiles (row : Fin side) :
    (layout.tiles.drop (row.val * side)).take side = List.ofFn (layout.tile row) := by
  have below := Nat.mul_le_mul_right side row.isLt
  rw [Nat.succ_mul] at below
  refine List.ext_getElem ?_ fun column _ within => ?_
  · rw [List.length_take, List.length_drop, length_tiles, List.length_ofFn]
    omega
  · rw [List.length_ofFn] at within
    have found := layout.getElem?_tiles row ⟨column, within⟩
    rw [List.getElem_take, List.getElem_drop, List.getElem_ofFn]
    exact (List.getElem?_eq_some_iff.mp found).2

theorem stitchedRows_tiles : Box.stitchedRows size side layout.tiles = layout.joinedRows := by
  simp only [Box.stitchedRows, Box.joinedLines, take_drop_tiles, List.flatMap_def, List.map_ofFn]
  rfl

/-- The rows next to and below each other have the cells of the whole picture. -/
theorem joinedRows_eq :
    layout.joinedRows = List.ofFn fun row => List.ofFn fun column => layout.wholeCell row column := by
  symm
  refine (ofFn_divNat_modNat fun row line => List.ofFn fun column : Fin (side * (size - 2)) =>
    (layout.tile row column.divNat).picture.cell (inside line) (inside column.modNat)).trans ?_
  refine congrArg List.flatten (congrArg List.ofFn (funext fun row =>
    congrArg List.ofFn (funext fun line => ?_)))
  simp only [Picture.extract_row]
  exact ofFn_divNat_modNat fun column place =>
    (layout.tile row column).picture.cell (inside line) (inside place)

theorem stitch_tiles : Box.stitch size side layout.tiles = Picture.ofFn layout.wholeCell := by
  rw [Box.stitch, stitchedRows_tiles, joinedRows_eq, Picture.ofRows?_ofFn, Option.getD_some]

/-- A cell of the whole picture lies inside one tile. -/
theorem cell_stitch (row column : Fin (side * (size - 2))) :
    (Box.stitch size side layout.tiles).cell row column =
      (layout.tile row.divNat column.divNat).picture.cell (inside row.modNat) (inside column.modNat) := by
  rw [stitch_tiles, Picture.cell_ofFn, wholeCell]

/-- The rows of the whole picture are those of the tiles next to and below each other. -/
theorem rows_stitch :
    (Box.stitch size side layout.tiles).rows.toList.map Vector.toList = layout.joinedRows := by
  rw [stitch_tiles, Picture.rows_ofFn, joinedRows_eq]

end Layout

theorem le_length_of_readTile {lines : List Text} {tile : Nat × List (List Bool)}
    (read : readTile lines = .ok tile) : 3 ≤ tile.2.length := by
  cases lines with
  | nil => contradiction
  | cons header lines =>
    cases named : headerId? header with
    | none => simp [readTile, named] at read
    | some id =>
      simp only [readTile, named] at read
      obtain ⟨rows, _, checked⟩ := bind_eq_ok_iff.mp read
      split at checked
      · contradiction
      · next square =>
        cases checked
        simp only [Bool.or_eq_true, decide_eq_true_eq, not_or] at square
        exact Nat.not_lt.mp square.1

/-- The first of some tiles is at least three cells long. -/
theorem le_length_of_mapM_readTile {blocks : List (List Text)} {first : Nat × List (List Bool)}
    {rest : List (Nat × List (List Bool))} (read : blocks.mapM readTile = .ok (first :: rest)) :
    3 ≤ first.2.length := by
  cases blocks with
  | nil => cases read
  | cons block others =>
    rw [List.mapM_cons] at read
    obtain ⟨tile, ofFirst, later⟩ := bind_eq_ok_iff.mp read
    obtain ⟨_, _, same⟩ := bind_eq_ok_iff.mp later
    cases same
    exact le_length_of_readTile ofFirst

/-- What a text that can be read says of the box: its tiles are at least three cells long, and its
borders are those of its tiles. -/
theorem of_parse_eq_ok {text : Text} {box : Box} (parsed : parse text = .ok box) :
    3 ≤ box.size ∧ box.borders = box.tiles.flatMap Tile.borders := by
  obtain ⟨tiles, read, chosen⟩ := bind_eq_ok_iff.mp parsed
  rw [Outcome.ofExcept_eq_ok_iff] at read
  cases tiles with
  | nil => contradiction
  | cons first rest =>
    have large := le_length_of_mapM_readTile read
    obtain ⟨tiles, _, boxed⟩ := bind_eq_ok_iff.mp chosen
    rw [Box.ofTiles?_eq_some (by omega), Outcome.orFault_eq_ok_iff, Option.some_inj] at boxed
    cases boxed
    exact ⟨large, rfl⟩

/-- Of a text that can be read, an assembly returns all tiles once each, in some orientation, row by
row in a square. Tiles that touch have equal borders, and the borders at the top and on the left occur
on no other side. The stitched picture is made of the rows of the tiles without their borders, and each
of its cells is a cell inside the tile that lies there. -/
theorem exists_layout_of_assemble {text : Text} {box : Box} (parsed : parse text = .ok box)
    {side : Nat} {placed : List (Tile box.size)} (assembled : box.assemble = .ok (side, placed)) :
    3 ≤ box.size ∧ side * side = box.tiles.length ∧
    ∃ layout : Layout box.size side, layout.tiles = placed ∧
      layout.Uses box.tiles ∧ (box.tiles.map Tile.id).Nodup ∧ layout.Joined ∧
      (∀ row column, row.val = 0 →
        (box.tiles.flatMap Tile.borders).count (layout.tile row column).picture.top.canonical = 1) ∧
      (∀ row column, column.val = 0 →
        (box.tiles.flatMap Tile.borders).count (layout.tile row column).picture.left.canonical = 1) ∧
      (Box.stitch box.size side placed).rows.toList.map Vector.toList = layout.joinedRows ∧
      ∀ row column : Fin (side * (box.size - 2)),
        (Box.stitch box.size side placed).cell row column =
          (layout.tile row.divNat column.divNat).picture.cell (inside row.modNat)
            (inside column.modNat) := by
  obtain ⟨large, borders⟩ := of_parse_eq_ok parsed
  obtain ⟨full, length, arranged⟩ := Box.arranged_of_assemble assembled
  obtain ⟨layout, rfl⟩ := Layout.exists_tiles_eq length
  obtain ⟨uses, distinct⟩ := arranged.uses full
  refine ⟨large, full, layout, rfl, uses, distinct, arranged.joined, ?_, ?_, layout.rows_stitch,
    layout.cell_stitch⟩
  · intro row column first
    rw [← borders]
    exact beq_iff_eq.mp (arranged.isOuter_top first)
  · intro row column first
    rw [← borders]
    exact beq_iff_eq.mp (arranged.isOuter_left first)

/-- Four tiles of a square, out of order and turned. -/
def camera : Text :=
  ("Tile 19:\n.#.##\n#..#.\n.###.\n##.#.\n.##.#\n\n" ++
    "Tile 13:\n#...#\n#..##\n..##.\n#....\n#.#.#\n\n" ++
    "Tile 17:\n.#.##\n...##\n.#..#\n.....\n#.#..\n\n" ++
    "Tile 11:\n##...\n##...\n#..##\n.#..#\n##.##\n").toList

private theorem exists_assemble_camera :
    ∃ box pieces, parse camera = .ok box ∧ box.assemble = .ok pieces := by
  have assembles : (match parse camera with
      | .ok box => box.assemble.isOk
      | .error _ => false) = true := by
    decide +kernel
  generalize parsed : parse camera = outcome at assembles
  cases outcome with
  | error _ => cases assembles
  | ok box =>
    change box.assemble.isOk = true at assembles
    generalize assembled : box.assemble = pieces at assembles
    cases pieces with
    | error _ => cases assembles
    | ok pieces => exact ⟨box, pieces, rfl, assembled⟩

theorem exists_layout_of_assemble_camera : ∃ box, parse camera = .ok box ∧
    ∃ side placed, box.assemble = .ok (side, placed) ∧
      3 ≤ box.size ∧ side * side = box.tiles.length ∧
      ∃ layout : Layout box.size side, layout.tiles = placed ∧
        layout.Uses box.tiles ∧ (box.tiles.map Tile.id).Nodup ∧ layout.Joined ∧
        (∀ row column, row.val = 0 →
          (box.tiles.flatMap Tile.borders).count (layout.tile row column).picture.top.canonical = 1) ∧
        (∀ row column, column.val = 0 →
          (box.tiles.flatMap Tile.borders).count (layout.tile row column).picture.left.canonical = 1) ∧
        (Box.stitch box.size side placed).rows.toList.map Vector.toList = layout.joinedRows ∧
        ∀ row column : Fin (side * (box.size - 2)),
          (Box.stitch box.size side placed).cell row column =
            (layout.tile row.divNat column.divNat).picture.cell (inside row.modNat)
              (inside column.modNat) := by
  obtain ⟨box, ⟨side, placed⟩, parsed, assembled⟩ := exists_assemble_camera
  exact ⟨box, parsed, side, placed, assembled, exists_layout_of_assemble parsed assembled⟩

end PuzzleCalendar.Jigsaw
