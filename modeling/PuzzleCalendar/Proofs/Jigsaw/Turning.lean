import PuzzleCalendar.Puzzles.Jigsaw.Assembly

/-! # Turning and mirroring

Four turns and two mirrorings change nothing, and a mirroring between two turns undoes them. So the
eight images of anything under turns and mirrorings are images of each other. A turn moves the borders
of a picture around and a mirroring exchanges left and right. Both read some borders backwards, which
the canonical form does not see: all orientations of a picture have the same four canonical borders.
-/

namespace PuzzleCalendar.Jigsaw

/-- The images under every number of turns, each time after the mirror image. -/
def images {α : Type} (turn mirror : α → α) (start : α) : List α :=
  [start, turn start, turn (turn start), turn (turn (turn start))].flatMap
    fun turned => [mirror turned, turned]

/-- The laws of the turns and the mirrorings of a square. -/
structure SquareMotions {α : Type} (turn mirror : α → α) : Prop where
  turn_four : ∀ start, turn (turn (turn (turn start))) = start
  mirror_mirror : ∀ start, mirror (mirror start) = start
  turn_mirror_turn : ∀ start, turn (mirror (turn start)) = mirror start

section Images

variable {α : Type} {turn mirror : α → α} {start image other : α}

theorem mem_images : image ∈ images turn mirror start ↔
    (image = mirror start ∨ image = start) ∨
    (image = mirror (turn start) ∨ image = turn start) ∨
    (image = mirror (turn (turn start)) ∨ image = turn (turn start)) ∨
    image = mirror (turn (turn (turn start))) ∨ image = turn (turn (turn start)) := by
  simp [images, or_assoc]

theorem mem_images_self : start ∈ images turn mirror start :=
  mem_images.mpr (.inl (.inr rfl))

/-- What turns and mirrorings keep holds for all images. -/
theorem images_induction {motive : α → Prop} (base : motive start)
    (turned : ∀ image, motive image → motive (turn image))
    (mirrored : ∀ image, motive image → motive (mirror image))
    (member : image ∈ images turn mirror start) : motive image := by
  have once := turned _ base
  have twice := turned _ once
  have thrice := turned _ twice
  rcases mem_images.mp member with (rfl | rfl) | (rfl | rfl) | (rfl | rfl) | rfl | rfl
  · exact mirrored _ base
  · exact base
  · exact mirrored _ once
  · exact once
  · exact mirrored _ twice
  · exact twice
  · exact mirrored _ thrice
  · exact thrice

namespace SquareMotions

variable (motions : SquareMotions turn mirror)

include motions

/-- A turn after a mirroring is a mirroring after three turns. -/
theorem turn_mirror (start : α) : turn (mirror start) = mirror (turn (turn (turn start))) := by
  simpa only [motions.turn_four] using motions.turn_mirror_turn (turn (turn (turn start)))

theorem turn_mem_images (member : image ∈ images turn mirror start) :
    turn image ∈ images turn mirror start := by
  rw [mem_images] at member ⊢
  rcases member with (rfl | rfl) | (rfl | rfl) | (rfl | rfl) | rfl | rfl
  · exact .inr (.inr (.inr (.inl (motions.turn_mirror start))))
  · exact .inr (.inl (.inr rfl))
  · exact .inl (.inl (motions.turn_mirror_turn _))
  · exact .inr (.inr (.inl (.inr rfl)))
  · exact .inr (.inl (.inl (motions.turn_mirror_turn _)))
  · exact .inr (.inr (.inr (.inr rfl)))
  · exact .inr (.inr (.inl (.inl (motions.turn_mirror_turn _))))
  · exact .inl (.inr (motions.turn_four _))

theorem mirror_mem_images (member : image ∈ images turn mirror start) :
    mirror image ∈ images turn mirror start := by
  rw [mem_images] at member ⊢
  rcases member with (rfl | rfl) | (rfl | rfl) | (rfl | rfl) | rfl | rfl <;>
    simp [motions.mirror_mirror]

theorem images_trans (first : image ∈ images turn mirror start)
    (second : other ∈ images turn mirror image) : other ∈ images turn mirror start :=
  images_induction first (fun _ => motions.turn_mem_images) (fun _ => motions.mirror_mem_images) second

theorem images_symm (member : image ∈ images turn mirror start) : start ∈ images turn mirror image := by
  have turned (image : α) : image ∈ images turn mirror (turn image) := by
    simp [mem_images, motions.turn_four]
  have mirrored (image : α) : image ∈ images turn mirror (mirror image) := by
    simp [mem_images, motions.mirror_mirror]
  exact images_induction (motive := fun image => start ∈ images turn mirror image) mem_images_self
    (fun _ => motions.images_trans (turned _)) (fun _ => motions.images_trans (mirrored _)) member

end SquareMotions

end Images

namespace Border

variable {size : Nat}

theorem precedes_total {one two : List Bool} (lengths : one.length = two.length) :
    precedes one two = true ∨ precedes two one = true := by
  induction one generalizing two with
  | nil => exact .inl (by simp [precedes])
  | cons first rest ih =>
    cases two with
    | nil => contradiction
    | cons second others =>
      by_cases same : first = second
      · simpa [precedes, same] using ih (Nat.succ.inj lengths)
      · cases first <;> cases second <;> simp_all [precedes]

theorem precedes_antisymm {one two : List Bool} (lengths : one.length = two.length)
    (forth : precedes one two = true) (back : precedes two one = true) : one = two := by
  induction one generalizing two with
  | nil => exact (List.eq_nil_of_length_eq_zero lengths.symm).symm
  | cons first rest ih =>
    cases two with
    | nil => contradiction
    | cons second others =>
      by_cases same : first = second
      · subst same
        simp only [precedes, ↓reduceIte] at forth back
        rw [ih (Nat.succ.inj lengths) forth back]
      · cases first <;> cases second <;> simp_all [precedes]

/-- A border has the same canonical form read either way round. -/
@[simp] theorem canonical_reverse (border : Border size) :
    canonical border.reverse = border.canonical := by
  have lengths : border.toList.length = border.reverse.toList.length := by simp
  unfold canonical
  rw [Vector.reverse_reverse]
  split <;> rename_i forth <;> split <;> rename_i back
  · exact (Vector.toList_inj.mp (precedes_antisymm lengths back forth)).symm
  · rfl
  · rfl
  · rcases precedes_total lengths with holds | holds
    · exact absurd holds back
    · exact absurd holds forth

end Border

namespace Picture

variable {size : Nat} (picture : Picture size)

theorem squareMotions : SquareMotions (rotate : Picture size → Picture size) flip where
  turn_four := rotate_four
  mirror_mirror := flip_flip
  turn_mirror_turn picture := ext_cell fun row column => by simp

/-- Borders are equal when each of their cells is. -/
theorem ext_border {one two : Border size} (same : ∀ place : Fin size, one.get place = two.get place) :
    one = two :=
  Vector.ext fun place inside => same ⟨place, inside⟩

theorem get_reverse_rev (border : Border size) (place : Fin size) :
    border.reverse.get place = border.get place.rev := by
  have places : size - 1 - place.val = place.rev.val := by
    rw [Fin.val_rev]
    omega
  exact (Vector.getElem_reverse place.isLt).trans (congrArg border.get (Fin.ext places))

theorem get_top (place : Fin size) : picture.top.get place = picture.cell ⟨0, place.pos⟩ place :=
  Vector.getElem_ofFn place.isLt

theorem get_bottom (place : Fin size) :
    picture.bottom.get place = picture.cell (Fin.rev ⟨0, place.pos⟩) place :=
  Vector.getElem_ofFn place.isLt

theorem get_left (place : Fin size) : picture.left.get place = picture.cell place ⟨0, place.pos⟩ :=
  Vector.getElem_ofFn place.isLt

theorem get_right (place : Fin size) :
    picture.right.get place = picture.cell place (Fin.rev ⟨0, place.pos⟩) :=
  Vector.getElem_ofFn place.isLt

@[simp] theorem top_rotate : picture.rotate.top = picture.left.reverse :=
  ext_border fun place => by rw [get_reverse_rev, get_top, get_left, cell_rotate]

@[simp] theorem right_rotate : picture.rotate.right = picture.top :=
  ext_border fun place => by rw [get_right, get_top, cell_rotate, Fin.rev_rev]

@[simp] theorem bottom_rotate : picture.rotate.bottom = picture.right.reverse :=
  ext_border fun place => by rw [get_reverse_rev, get_bottom, get_right, cell_rotate]

@[simp] theorem left_rotate : picture.rotate.left = picture.bottom :=
  ext_border fun place => by rw [get_left, get_bottom, cell_rotate]

@[simp] theorem top_flip : picture.flip.top = picture.top.reverse :=
  ext_border fun place => by rw [get_reverse_rev, get_top, get_top, cell_flip]

@[simp] theorem right_flip : picture.flip.right = picture.left :=
  ext_border fun place => by rw [get_right, get_left, cell_flip, Fin.rev_rev]

@[simp] theorem bottom_flip : picture.flip.bottom = picture.bottom.reverse :=
  ext_border fun place => by rw [get_reverse_rev, get_bottom, get_bottom, cell_flip]

@[simp] theorem left_flip : picture.flip.left = picture.right :=
  ext_border fun place => by rw [get_left, get_right, cell_flip]

end Picture

namespace Tile

variable {size : Nat}

/-- The tile turned by a quarter to the right. -/
def rotate (tile : Tile size) : Tile size := { tile with picture := tile.picture.rotate }

/-- The tile mirrored from left to right. -/
def flip (tile : Tile size) : Tile size := { tile with picture := tile.picture.flip }

/-- The second tile is the first one in some orientation. -/
def Turned (one two : Tile size) : Prop :=
  two.id = one.id ∧ two.picture ∈ one.picture.orientations

theorem ext_picture {one two : Tile size} (ids : one.id = two.id) (pictures : one.picture = two.picture) :
    one = two := by
  cases one
  cases two
  exact (mk.injEq ..).mpr ⟨ids, pictures⟩

@[simp] theorem picture_rotate (tile : Tile size) : tile.rotate.picture = tile.picture.rotate := rfl

@[simp] theorem picture_flip (tile : Tile size) : tile.flip.picture = tile.picture.flip := rfl

theorem squareMotions : SquareMotions (rotate : Tile size → Tile size) flip where
  turn_four tile := by simp [rotate]
  mirror_mirror tile := by simp [flip]
  turn_mirror_turn tile := by simp [rotate, flip, Picture.squareMotions.turn_mirror_turn]

namespace Turned

variable {one two three : Tile size}

theorem refl (tile : Tile size) : tile.Turned tile := ⟨rfl, mem_images_self⟩

theorem symm (turned : one.Turned two) : two.Turned one :=
  ⟨turned.1.symm, Picture.squareMotions.images_symm turned.2⟩

theorem trans (first : one.Turned two) (second : two.Turned three) : one.Turned three :=
  ⟨second.1.trans first.1, Picture.squareMotions.images_trans first.2 second.2⟩

theorem rotate (turned : one.Turned two) : one.Turned two.rotate :=
  ⟨turned.1, Picture.squareMotions.turn_mem_images turned.2⟩

theorem flip (turned : one.Turned two) : one.Turned two.flip :=
  ⟨turned.1, Picture.squareMotions.mirror_mem_images turned.2⟩

end Turned

theorem perm_borders_rotate (tile : Tile size) : tile.rotate.borders.Perm tile.borders := by
  simp only [borders, picture_rotate, Picture.top_rotate, Picture.right_rotate, Picture.bottom_rotate,
    Picture.left_rotate, List.map_cons, List.map_nil, Border.canonical_reverse]
  exact (List.perm_append_singleton _ [_, _, _]).symm

theorem perm_borders_flip (tile : Tile size) : tile.flip.borders.Perm tile.borders := by
  simp only [borders, picture_flip, Picture.top_flip, Picture.right_flip, Picture.bottom_flip,
    Picture.left_flip, List.map_cons, List.map_nil, Border.canonical_reverse]
  exact .cons _ (List.reverse_perm [_, _, _])

/-- All orientations of a tile have the same canonical borders. -/
theorem Turned.perm_borders {one two : Tile size} (turned : one.Turned two) :
    two.borders.Perm one.borders := by
  obtain ⟨-, member⟩ := turned
  exact images_induction (motive := fun picture => (Tile.mk two.id picture).borders.Perm one.borders) .rfl
    (fun picture same => (perm_borders_rotate ⟨two.id, picture⟩).trans same)
    (fun picture same => (perm_borders_flip ⟨two.id, picture⟩).trans same) member

end Tile

end PuzzleCalendar.Jigsaw
