import Mathlib.Algebra.Order.BigOperators.Group.Finset
import PuzzleCalendar.Proofs.Jigsaw.Layout

/-! # Borders of a clean layout

Counted over the cells of a clean layout, a border on the outside is used up by its own tile, and a
border between two tiles by these two. No tile therefore has a border twice, and a border tells the
tiles that have it. A tile with four different borders lies in one way only, once two neighbouring sides
of it are known.
-/

namespace PuzzleCalendar.Jigsaw

namespace Layout

open Finset

variable {size side : Nat} {layout : Layout size side} {border : Border size}

/-- The canonical borders of the tile on a cell. -/
def bordersAt (layout : Layout size side) (cell : Fin side × Fin side) : List (Border size) :=
  (layout.tile cell.1 cell.2).borders

theorem borderCount_eq_sum_cells (layout : Layout size side) (border : Border size) :
    layout.borderCount border = ∑ cell, (layout.bordersAt cell).count border := by
  rw [borderCount_eq_sum, Fintype.sum_prod_type]
  rfl

theorem count_le_borderCount (layout : Layout size side) (border : Border size)
    (cell : Fin side × Fin side) :
    (layout.bordersAt cell).count border ≤ layout.borderCount border := by
  rw [borderCount_eq_sum_cells]
  exact single_le_sum (f := fun cell => (layout.bordersAt cell).count border)
    (fun _ _ => Nat.zero_le _) (mem_univ cell)

theorem count_add_count_le (layout : Layout size side) (border : Border size)
    {one two : Fin side × Fin side} (different : one ≠ two) :
    (layout.bordersAt one).count border + (layout.bordersAt two).count border ≤
      layout.borderCount border := by
  rw [borderCount_eq_sum_cells]
  exact add_le_sum (f := fun cell => (layout.bordersAt cell).count border)
    (fun _ _ => Nat.zero_le _) (mem_univ one) (mem_univ two) different

theorem count_add_count_add_count_le (layout : Layout size side) (border : Border size)
    {one two three : Fin side × Fin side} (first : one ≠ two) (second : one ≠ three)
    (third : two ≠ three) :
    (layout.bordersAt one).count border + ((layout.bordersAt two).count border +
      (layout.bordersAt three).count border) ≤ layout.borderCount border := by
  rw [borderCount_eq_sum_cells,
    ← add_sum_erase univ (fun cell => (layout.bordersAt cell).count border) (mem_univ one)]
  exact Nat.add_le_add_left (add_le_sum (f := fun cell => (layout.bordersAt cell).count border)
    (fun _ _ => Nat.zero_le _) (mem_erase.mpr ⟨first.symm, mem_univ two⟩)
    (mem_erase.mpr ⟨second.symm, mem_univ three⟩) third) _

/-- Two tiles that have a border between them are the only ones that have it. -/
theorem eq_or_eq_of_borderCount_eq_two (twice : layout.borderCount border = 2)
    {one two other : Fin side × Fin side} (different : one ≠ two) (first : border ∈ layout.bordersAt one)
    (second : border ∈ layout.bordersAt two) (third : border ∈ layout.bordersAt other) :
    other = one ∨ other = two := by
  by_contra neither
  obtain ⟨notOne, notTwo⟩ := not_or.mp neither
  have all := count_add_count_add_count_le layout border different (Ne.symm notOne) (Ne.symm notTwo)
  have := List.count_pos_iff.mpr first
  have := List.count_pos_iff.mpr second
  have := List.count_pos_iff.mpr third
  omega

theorem mem_bordersAt {row column : Fin side} : border ∈ layout.bordersAt (row, column) ↔
    border = (layout.tile row column).picture.top.canonical ∨
    border = (layout.tile row column).picture.right.canonical ∨
    border = (layout.tile row column).picture.bottom.canonical ∨
    border = (layout.tile row column).picture.left.canonical := by
  simp [bordersAt, Tile.borders]

theorem exists_add_one_eq {line : Fin side} (later : line.val ≠ 0) :
    ∃ before : Fin side, before.val + 1 = line.val :=
  ⟨⟨line.val - 1, by omega⟩, Nat.succ_pred later⟩

theorem exists_eq_add_one {line : Fin side} (earlier : line.val + 1 ≠ side) :
    ∃ next : Fin side, line.val + 1 = next.val :=
  ⟨⟨line.val + 1, by omega⟩, rfl⟩

theorem ne_of_add_one_eq {line next : Fin side} (beside : line.val + 1 = next.val) : line ≠ next := by
  rintro rfl
  omega

/-- Two tiles next to each other both have the border between them. -/
theorem Joined.shared_across (joined : layout.Joined) {row column next : Fin side}
    (beside : column.val + 1 = next.val) :
    (layout.tile row column).picture.right.canonical ∈ layout.bordersAt (row, next) ∧
      (layout.tile row next).picture.left.canonical ∈ layout.bordersAt (row, column) := by
  have touch := joined.across row column next beside
  exact ⟨mem_bordersAt.mpr (.inr (.inr (.inr (by rw [touch])))),
    mem_bordersAt.mpr (.inr (.inl (by rw [touch])))⟩

/-- Two tiles on top of each other both have the border between them. -/
theorem Joined.shared_down (joined : layout.Joined) {row below column : Fin side}
    (under : row.val + 1 = below.val) :
    (layout.tile row column).picture.bottom.canonical ∈ layout.bordersAt (below, column) ∧
      (layout.tile below column).picture.top.canonical ∈ layout.bordersAt (row, column) := by
  have touch := joined.down row below column under
  exact ⟨mem_bordersAt.mpr (.inl (by rw [touch])),
    mem_bordersAt.mpr (.inr (.inr (.inl (by rw [touch]))))⟩

/-- A border of a tile lies on the outside, or a tile on another cell has it too. -/
theorem Clean.outer_or_shared (clean : layout.Clean) {cell : Fin side × Fin side}
    (member : border ∈ layout.bordersAt cell) : layout.borderCount border = 1 ∨
      layout.borderCount border = 2 ∧ ∃ other ≠ cell, border ∈ layout.bordersAt other := by
  obtain ⟨row, column⟩ := cell
  rcases mem_bordersAt.mp member with rfl | rfl | rfl | rfl
  · rw [clean.top]
    split
    · exact .inl rfl
    · next later =>
      obtain ⟨above, onTop⟩ := exists_add_one_eq later
      exact .inr ⟨rfl, (above, column), by simp [ne_of_add_one_eq onTop], (clean.shared_down onTop).2⟩
  · rw [clean.right]
    split
    · exact .inl rfl
    · next earlier =>
      obtain ⟨next, beside⟩ := exists_eq_add_one earlier
      exact .inr ⟨rfl, (row, next), by simp [(ne_of_add_one_eq beside).symm], (clean.shared_across beside).1⟩
  · rw [clean.bottom]
    split
    · exact .inl rfl
    · next earlier =>
      obtain ⟨below, under⟩ := exists_eq_add_one earlier
      exact .inr ⟨rfl, (below, column), by simp [(ne_of_add_one_eq under).symm], (clean.shared_down under).1⟩
  · rw [clean.left]
    split
    · exact .inl rfl
    · next later =>
      obtain ⟨before, beside⟩ := exists_add_one_eq later
      exact .inr ⟨rfl, (row, before), by simp [ne_of_add_one_eq beside], (clean.shared_across beside).2⟩

/-- No tile of a clean layout has a border twice. -/
theorem Clean.nodup_bordersAt (clean : layout.Clean) (cell : Fin side × Fin side) :
    (layout.bordersAt cell).Nodup := by
  rw [List.nodup_iff_count_le_one]
  intro border
  by_cases member : border ∈ layout.bordersAt cell
  · rcases clean.outer_or_shared member with once | ⟨twice, other, different, shared⟩
    · exact once ▸ count_le_borderCount layout border cell
    · have both := count_add_count_le layout border different
      have := List.count_pos_iff.mpr shared
      omega
  · rw [List.count_eq_zero_of_not_mem member]
    exact Nat.zero_le 1

/-- The four borders of a tile of a clean layout are different. -/
theorem Clean.borders_ne (clean : layout.Clean) (row column : Fin side) :
    let picture := (layout.tile row column).picture
    picture.top.canonical ≠ picture.right.canonical ∧ picture.top.canonical ≠ picture.bottom.canonical ∧
      picture.top.canonical ≠ picture.left.canonical ∧
      picture.right.canonical ≠ picture.left.canonical ∧
      picture.bottom.canonical ≠ picture.left.canonical := by
  have distinct := clean.nodup_bordersAt (row, column)
  simp only [bordersAt, Tile.borders, List.map_cons, List.map_nil, List.nodup_cons, List.mem_cons,
    List.not_mem_nil, or_false, not_or] at distinct
  obtain ⟨⟨topRight, topBottom, topLeft⟩, ⟨_, rightLeft⟩, bottomLeft, _⟩ := distinct
  exact ⟨topRight, topBottom, topLeft, rightLeft, bottomLeft⟩

/-- The tile to the left of a cell and the one on the cell have the border between them to
themselves. -/
theorem Clean.cell_of_mem_left (clean : layout.Clean) {row before column : Fin side}
    (beside : before.val + 1 = column.val) {cell : Fin side × Fin side}
    (member : (layout.tile row column).picture.left.canonical ∈ layout.bordersAt cell) :
    cell = (row, before) ∨ cell = (row, column) := by
  have twice : layout.borderCount (layout.tile row column).picture.left.canonical = 2 := by
    rw [clean.left, if_neg (by omega)]
  have different : (row, before) ≠ (row, column) := by simp [ne_of_add_one_eq beside]
  exact eq_or_eq_of_borderCount_eq_two twice different (clean.shared_across beside).2
    (mem_bordersAt.mpr (.inr (.inr (.inr rfl)))) member

/-- The tile above a cell and the one on the cell have the border between them to themselves. -/
theorem Clean.cell_of_mem_top (clean : layout.Clean) {above row column : Fin side}
    (onTop : above.val + 1 = row.val) {cell : Fin side × Fin side}
    (member : (layout.tile row column).picture.top.canonical ∈ layout.bordersAt cell) :
    cell = (above, column) ∨ cell = (row, column) := by
  have twice : layout.borderCount (layout.tile row column).picture.top.canonical = 2 := by
    rw [clean.top, if_neg (by omega)]
  have different : (above, column) ≠ (row, column) := by simp [ne_of_add_one_eq onTop]
  exact eq_or_eq_of_borderCount_eq_two twice different (clean.shared_down onTop).2
    (mem_bordersAt.mpr (.inl rfl)) member

end Layout

/-- Where the sides of a picture come to lie on the left and at the top. -/
theorem Picture.sides_of_mem_orientations {size : Nat} {picture turned : Picture size}
    (member : turned ∈ picture.orientations) : turned = picture ∨ turned = picture.rotate.flip ∨
      (turned.left.canonical, turned.top.canonical) ∈
        [(picture.right.canonical, picture.top.canonical),
          (picture.bottom.canonical, picture.left.canonical),
          (picture.left.canonical, picture.bottom.canonical),
          (picture.right.canonical, picture.bottom.canonical),
          (picture.bottom.canonical, picture.right.canonical),
          (picture.top.canonical, picture.right.canonical)] := by
  rcases mem_images.mp member with (rfl | rfl) | (rfl | rfl) | (rfl | rfl) | rfl | rfl <;> simp

namespace Layout

variable {size side : Nat} {layout : Layout size side}

/-- The picture that starts a clean layout lies as it does there or with rows and columns
exchanged. -/
theorem Clean.eq_or_eq_of_outer (clean : layout.Clean) {row column : Fin side}
    (notLast : row.val + 1 ≠ side ∧ column.val + 1 ≠ side) {picture : Picture size}
    (turned : picture ∈ (layout.tile row column).picture.orientations)
    (left : layout.borderCount picture.left.canonical = 1)
    (top : layout.borderCount picture.top.canonical = 1) :
    picture = (layout.tile row column).picture ∨
      picture = (layout.tile row column).picture.rotate.flip := by
  have right := clean.right row column
  have bottom := clean.bottom row column
  rw [if_neg notLast.2] at right
  rw [if_neg notLast.1] at bottom
  rcases Picture.sides_of_mem_orientations turned with same | same | sides
  · exact .inl same
  · exact .inr same
  · simp only [List.mem_cons, Prod.mk.injEq, List.not_mem_nil, or_false] at sides
    rcases sides with ⟨one, two⟩ | ⟨one, two⟩ | ⟨one, two⟩ | ⟨one, two⟩ | ⟨one, two⟩ | ⟨one, two⟩ <;>
      rw [one] at left <;> rw [two] at top <;> omega

/-- A picture that meets its neighbours on the left and above, or the outside where there are none,
lies as it does in the layout. -/
theorem Clean.eq_of_meets (clean : layout.Clean) (large : 2 ≤ side) {row column : Fin side}
    (later : row.val ≠ 0 ∨ column.val ≠ 0) {picture : Picture size}
    (turned : picture ∈ (layout.tile row column).picture.orientations)
    (leftOuter : column.val = 0 → layout.borderCount picture.left.canonical = 1)
    (leftMeets : column.val ≠ 0 → picture.left = (layout.tile row column).picture.left)
    (topOuter : row.val = 0 → layout.borderCount picture.top.canonical = 1)
    (topMeets : row.val ≠ 0 → picture.top = (layout.tile row column).picture.top) :
    picture = (layout.tile row column).picture := by
  obtain ⟨topRight, topBottom, topLeft, rightLeft, bottomLeft⟩ := clean.borders_ne row column
  -- With two rows and columns the side across from the outside is shared.
  have notRight : column.val = 0 →
      picture.left.canonical ≠ (layout.tile row column).picture.right.canonical := by
    intro first same
    have outer := leftOuter first
    rw [same, clean.right, if_neg (by omega)] at outer
    omega
  have notBottom : row.val = 0 →
      picture.top.canonical ≠ (layout.tile row column).picture.bottom.canonical := by
    intro first same
    have outer := topOuter first
    rw [same, clean.bottom, if_neg (by omega)] at outer
    omega
  have isLeft : column.val ≠ 0 →
      picture.left.canonical = (layout.tile row column).picture.left.canonical :=
    fun beyond => congrArg Border.canonical (leftMeets beyond)
  have isTop : row.val ≠ 0 →
      picture.top.canonical = (layout.tile row column).picture.top.canonical :=
    fun below => congrArg Border.canonical (topMeets below)
  clear leftOuter leftMeets topOuter topMeets
  rcases Picture.sides_of_mem_orientations turned with same | rfl | sides
  · exact same
  · simp only [Picture.left_flip, Picture.right_rotate, Picture.top_flip, Picture.top_rotate,
      Border.canonical_reverse] at isLeft isTop
    rcases later with below | beyond
    · exact absurd (isTop below).symm topLeft
    · exact absurd (isLeft beyond) topLeft
  · simp only [List.mem_cons, Prod.mk.injEq, List.not_mem_nil, or_false] at sides
    grind

end Layout

end PuzzleCalendar.Jigsaw
