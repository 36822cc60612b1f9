import Mathlib.Data.List.FinRange
import Mathlib.Data.List.Perm.Basic
import PuzzleCalendar.Proofs.Jigsaw.Stitching

/-! # Corners by sides and by tiles

The box counts each border once for every side that shows it. A tile that shows a border on two of its
own sides therefore takes both of them for shared, also when no other tile has that border. The count of a border
is the number of tiles that carry it exactly when none of them carries it twice, and a tile is taken for
a corner, or not, by mistake exactly when such a pair of sides makes the difference.
-/

namespace PuzzleCalendar.Jigsaw

section Counting

variable {α β : Type}

/-- Elements with one of two properties, counted by the first property. -/
theorem countP_or (list : List β) (p q : β → Bool) :
    list.countP (fun element => q element || p element) =
      list.countP p + list.countP fun element => q element && !p element := by
  induction list with
  | nil => rfl
  | cons element list ih =>
    simp only [List.countP_cons, ih]
    cases p element <;> cases q element <;> simp <;> omega

variable [BEq β] [LawfulBEq β]

/-- An element is counted at least once for each list that has it, and exactly once when no list
repeats it. -/
theorem count_flatMap_eq_countP_iff (parts : α → List β) (element : β) (items : List α) :
    items.countP (element ∈ parts ·) ≤ (items.flatMap parts).count element ∧
      ((items.flatMap parts).count element = items.countP (element ∈ parts ·) ↔
        ∀ item ∈ items, (parts item).count element ≤ 1) := by
  induction items with
  | nil => simp
  | cons item items ih =>
    obtain ⟨least, exactly⟩ := ih
    rw [List.flatMap_cons, List.count_append, List.countP_cons, List.forall_mem_cons, ← exactly]
    by_cases member : element ∈ parts item
    · have positive := List.count_pos_iff.mpr member
      simp only [member, decide_true, if_true]
      omega
    · simp only [member, decide_false, Bool.false_eq_true, if_false,
        List.count_eq_zero_of_not_mem member]
      omega

/-- What holds only of elements that occur twice holds of more than one, or of none. -/
theorem countP_ne_one {list : List β} {p : β → Bool}
    (repeated : ∀ element ∈ list, p element = true → 1 < list.count element) :
    list.countP p ≠ 1 := by
  intro once
  obtain ⟨element, member, holds⟩ := List.countP_pos_iff.mp (once ▸ Nat.one_pos)
  have twice := repeated element member holds
  have all : list.count element ≤ list.countP p :=
    List.countP_mono_left fun other _ same => beq_iff_eq.mp same ▸ holds
  omega

end Counting

namespace Box

variable (box : Box)

/-- The number of tiles that carry a border. -/
def carriers (border : Border box.size) : Nat :=
  box.tiles.countP (border ∈ Tile.borders ·)

/-- A tile at another place carries the border. -/
def OnAnother (place : Fin box.tiles.length) (border : Border box.size) : Prop :=
  ∃ other, other ≠ place ∧ border ∈ (box.tiles.get other).borders

instance (place : Fin box.tiles.length) (border : Border box.size) :
    Decidable (box.OnAnother place border) :=
  inferInstanceAs (Decidable (∃ _, _))

/-- The number of sides of a tile whose border another tile carries. -/
def sharedSides (place : Fin box.tiles.length) : Nat :=
  (box.tiles.get place).borders.countP (box.OnAnother place ·)

/-- The number of sides of a tile whose border the tile carries twice and no other tile carries. -/
def twinSides (place : Fin box.tiles.length) : Nat :=
  (box.tiles.get place).borders.countP fun border =>
    1 < (box.tiles.get place).borders.count border && !decide (box.OnAnother place border)

/-- The tiles with exactly two sides whose border another tile carries. -/
def trueCorners : List (Tile box.size) :=
  ((List.finRange box.tiles.length).filter fun place => box.sharedSides place = 2).map box.tiles.get

/-- A pair of sides with a border of their own, which decides whether two sides seem to be shared. -/
def Misjudged (place : Fin box.tiles.length) : Prop :=
  box.twinSides place = 2 ∧ box.sharedSides place ≠ 1

variable {box} {place : Fin box.tiles.length}

/-- A border of a tile occurs more than once on its own sides or on other tiles. -/
theorem one_lt_borderCount_iff (borders : box.borders = box.tiles.flatMap Tile.borders)
    {border : Border box.size} (own : border ∈ (box.tiles.get place).borders) :
    1 < box.borderCount border ↔
      1 < (box.tiles.get place).borders.count border ∨ box.OnAnother place border := by
  have apart : (box.tiles.get place :: box.tiles.eraseIdx place).Perm box.tiles :=
    List.getElem_cons_eraseIdx_perm place.isLt
  have split : box.borderCount border = (box.tiles.get place).borders.count border +
      ((box.tiles.eraseIdx place).flatMap Tile.borders).count border := by
    rw [borderCount, borders, ← (apart.flatMap_right Tile.borders).count_eq, List.flatMap_cons,
      List.count_append]
  have elsewhere : 0 < ((box.tiles.eraseIdx place).flatMap Tile.borders).count border ↔
      box.OnAnother place border := by
    rw [List.count_pos_iff, List.mem_flatMap]
    constructor
    · rintro ⟨tile, member, carries⟩
      obtain ⟨other, different, inside, rfl⟩ := List.mem_eraseIdx_iff_getElem.mp member
      exact ⟨⟨other, different⟩, fun same => inside (Fin.val_eq_of_eq same), carries⟩
    · rintro ⟨other, different, carries⟩
      refine ⟨_, List.mem_eraseIdx_iff_getElem.mpr ⟨other, ?_⟩, carries⟩
      exact ⟨other.isLt, Fin.val_ne_of_ne different, rfl⟩
  have once := List.count_pos_iff.mpr own
  rw [← elsewhere]
  omega

/-- A tile is taken for a corner when its shared sides and its twin sides are two together. -/
theorem get_mem_corners_iff (borders : box.borders = box.tiles.flatMap Tile.borders) :
    box.tiles.get place ∈ box.corners ↔ box.sharedSides place + box.twinSides place = 2 := by
  have sides : ((box.tiles.get place).borders.filter fun border => 1 < box.borderCount border).length =
      box.sharedSides place + box.twinSides place := by
    rw [← List.countP_eq_length_filter, sharedSides, twinSides, ← countP_or]
    apply List.countP_congr
    intro border own
    simp [one_lt_borderCount_iff borders own]
  rw [corners, List.mem_filter, sides, beq_iff_eq]
  exact and_iff_right (List.get_mem _ _)

/-- Tiles have four sides, and a border that is on two of them is no single twin. -/
theorem sides_bounds (place : Fin box.tiles.length) :
    box.sharedSides place + box.twinSides place ≤ 4 ∧ box.twinSides place ≠ 1 := by
  constructor
  · rw [sharedSides, twinSides, ← countP_or]
    exact List.countP_le_length
  · apply countP_ne_one
    intro border _ twin
    simp only [Bool.and_eq_true, decide_eq_true_eq] at twin
    exact twin.1

/-- A tile is rightly taken for a corner, or rightly not, unless its twin sides decide. -/
theorem get_mem_corners_iff_of_not_misjudged (borders : box.borders = box.tiles.flatMap Tile.borders) :
    (box.tiles.get place ∈ box.corners ↔ box.sharedSides place = 2) ↔ ¬ box.Misjudged place := by
  obtain ⟨four, notOne⟩ := sides_bounds place
  rw [get_mem_corners_iff borders, Misjudged]
  omega

/-- The same tile at another place shares all its sides. -/
theorem sharedSides_of_get_eq {other : Fin box.tiles.length} (different : other ≠ place)
    (same : box.tiles.get other = box.tiles.get place) : box.sharedSides place = 4 := by
  have all : box.sharedSides place = (box.tiles.get place).borders.length := by
    apply List.countP_eq_length.mpr
    intro border own
    exact decide_eq_true ⟨other, different, same ▸ own⟩
  exact all

theorem mem_trueCorners {tile : Tile box.size} :
    tile ∈ box.trueCorners ↔ ∃ place, box.sharedSides place = 2 ∧ box.tiles.get place = tile := by
  simp [trueCorners]

/-- The corners by the places of the tiles. -/
theorem corners_eq_map : box.corners = ((List.finRange box.tiles.length).filter fun place =>
    box.tiles.get place ∈ box.corners).map box.tiles.get := by
  calc
    box.corners = ((List.finRange box.tiles.length).map box.tiles.get).filter _ := by
      rw [List.map_get_finRange, corners]
    _ = ((List.finRange box.tiles.length).filter _).map box.tiles.get := List.filter_map
    _ = _ := by
      refine congrArg (List.map box.tiles.get) (List.filter_congr fun place _ => ?_)
      rw [Bool.eq_iff_iff]
      simp [corners]

/-- The corners are the right ones exactly when no tile is misjudged. -/
theorem corners_eq_iff (borders : box.borders = box.tiles.flatMap Tile.borders) :
    box.corners = box.trueCorners ↔ ∀ place, ¬ box.Misjudged place := by
  constructor
  · intro same place
    rw [← get_mem_corners_iff_of_not_misjudged borders, same, mem_trueCorners]
    constructor
    · rintro ⟨other, two, equal⟩
      by_cases here : other = place
      · exact here ▸ two
      · have four := sharedSides_of_get_eq (Ne.symm here) equal.symm
        omega
    · intro two
      exact ⟨place, two, rfl⟩
  · intro judged
    rw [corners_eq_map, trueCorners]
    refine congrArg (List.map box.tiles.get) (List.filter_congr fun place _ => ?_)
    exact decide_eq_decide.mpr ((get_mem_corners_iff_of_not_misjudged borders).mpr (judged place))

end Box

/-- Of a text that can be read, each border is counted once for every tile that carries it unless a tile
carries it on two sides. A tile is rightly taken for a corner, or rightly not, unless a pair of its sides
has a border to itself and not just one of the others is shared; and the corners are the tiles
with exactly two shared sides, in their order, exactly when there is no such tile. -/
theorem corners_of_parse {text : Text} {box : Box} (parsed : parse text = .ok box) :
    (∀ border, box.carriers border ≤ box.borderCount border ∧
      (box.borderCount border = box.carriers border ↔
        ∀ tile ∈ box.tiles, tile.borders.count border ≤ 1)) ∧
    (∀ place, (box.tiles.get place ∈ box.corners ↔ box.sharedSides place = 2) ↔
      ¬ box.Misjudged place) ∧
    (box.corners = box.trueCorners ↔ ∀ place, ¬ box.Misjudged place) := by
  obtain ⟨-, borders⟩ := of_parse_eq_ok parsed
  refine ⟨fun border => ?_, fun place => Box.get_mem_corners_iff_of_not_misjudged borders,
    Box.corners_eq_iff borders⟩
  rw [Box.borderCount, borders]
  exact count_flatMap_eq_countP_iff Tile.borders border box.tiles

/-- Four tiles of a square. The last one shows the same border below and on the right, where no tile lies. -/
def twinned : Text :=
  ("Tile 2:\n#..#\n....\n##..\n#...\n\n" ++
    "Tile 3:\n####\n...#\n...#\n....\n\n" ++
    "Tile 5:\n#...\n....\n##..\n..#.\n\n" ++
    "Tile 7:\n....\n....\n.###\n..##\n").toList

private theorem exists_box_twinned : ∃ box, parse twinned = .ok box ∧
    (∃ tile ∈ box.tiles, ∃ border ∈ tile.borders, box.borderCount border ≠ box.carriers border) ∧
    box.trueCorners.map Tile.id = [2, 3, 5, 7] ∧ box.corners.map Tile.id = [2, 3, 5] := by
  have holds : (match parse twinned with
      | .ok box => decide ((∃ tile ∈ box.tiles, ∃ border ∈ tile.borders,
          box.borderCount border ≠ box.carriers border) ∧
        box.trueCorners.map Tile.id = [2, 3, 5, 7] ∧ box.corners.map Tile.id = [2, 3, 5])
      | .error _ => false) = true := by
    decide +kernel
  generalize parse twinned = outcome at holds
  cases outcome with
  | error _ => cases holds
  | ok box => exact ⟨box, rfl, of_decide_eq_true holds⟩

theorem corners_of_parse_twinned : ∃ box, parse twinned = .ok box ∧
    (∀ border, box.carriers border ≤ box.borderCount border ∧
      (box.borderCount border = box.carriers border ↔
        ∀ tile ∈ box.tiles, tile.borders.count border ≤ 1)) ∧
    (∀ place, (box.tiles.get place ∈ box.corners ↔ box.sharedSides place = 2) ↔
      ¬ box.Misjudged place) ∧
    (box.corners = box.trueCorners ↔ ∀ place, ¬ box.Misjudged place) := by
  obtain ⟨box, parsed, -⟩ := exists_box_twinned
  exact ⟨box, parsed, corners_of_parse parsed⟩

/-- Each of four tiles shares two sides with others, but only three are taken for corners, because a border that
one tile carries twice is counted twice. -/
theorem corners_miss_twinned : ∃ box, parse twinned = .ok box ∧
    (∃ border, box.borderCount border ≠ box.carriers border) ∧
    box.trueCorners.map Tile.id = [2, 3, 5, 7] ∧ box.corners.map Tile.id = [2, 3, 5] ∧
    cornerProduct box = Outcome.report (.noSolution "expected 4 corner tiles, found 3") := by
  obtain ⟨box, parsed, ⟨-, -, border, -, counted⟩, right, taken⟩ := exists_box_twinned
  have three : box.corners.length = 3 := by
    rw [← List.length_map Tile.id, taken]
    rfl
  refine ⟨box, parsed, ⟨border, counted⟩, right, taken, ?_⟩
  simp only [cornerProduct, three]
  rfl

end PuzzleCalendar.Jigsaw
