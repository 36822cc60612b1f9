import PuzzleCalendar.Proofs.Jigsaw.Completeness
import PuzzleCalendar.Proofs.Jigsaw.Motions
import PuzzleCalendar.Proofs.Jigsaw.Roughness

/-! # The orientations are all images under symmetries

The orientations of a picture are what the eight motions make of it, and there are no other symmetries of the
square. A turn moves the eight images of anything on in their list, and a mirroring reverses it, so the
orientations of an orientation are the same ones in another order. What turning and mirroring keep is the same
for all of them: the number of lit cells and the canonical borders, which do not tell a border from its reverse.
-/

namespace PuzzleCalendar.Jigsaw

section Images

variable {α : Type} {turn mirror : α → α} {start image : α}

namespace SquareMotions

variable (laws : SquareMotions turn mirror)

include laws

theorem perm_images_turn (start : α) :
    (images turn mirror (turn start)).Perm (images turn mirror start) := by
  have last := laws.turn_four start
  simp only [images, List.flatMap_cons, List.flatMap_nil, List.cons_append, List.nil_append, last]
  change ([_, _, _, _, _, _] ++ [mirror start, start]).Perm ([mirror start, start] ++ [_, _, _, _, _, _])
  exact List.perm_append_comm

theorem perm_images_mirror (start : α) :
    (images turn mirror (mirror start)).Perm (images turn mirror start) := by
  have once : turn (mirror start) = mirror (turn (turn (turn start))) := laws.turn_mirror start
  have twice : turn (mirror (turn (turn (turn start)))) = mirror (turn (turn start)) :=
    laws.turn_mirror_turn _
  have thrice : turn (mirror (turn (turn start))) = mirror (turn start) := laws.turn_mirror_turn _
  simp only [images, List.flatMap_cons, List.flatMap_nil, List.cons_append, List.nil_append, once, twice, thrice,
    laws.mirror_mirror]
  -- The other images come in reverse.
  exact (List.Perm.swap (mirror start) start []).append (List.reverse_perm [_, _, _, _, _, _])

/-- The images of an image are the same ones in another order. -/
theorem perm_images (member : image ∈ images turn mirror start) :
    (images turn mirror image).Perm (images turn mirror start) :=
  images_induction (motive := fun image => (images turn mirror image).Perm (images turn mirror start)) .rfl
    (fun image same => (laws.perm_images_turn image).trans same)
    (fun image same => (laws.perm_images_mirror image).trans same) member

end SquareMotions

end Images

namespace Border

variable {size : Nat}

theorem canonical_eq_or (border : Border size) :
    border.canonical = border ∨ border.canonical = border.reverse := by
  rw [canonical]
  split
  · exact .inl rfl
  · exact .inr rfl

/-- Two borders have the same canonical form exactly when they are one border, read either way round. -/
theorem canonical_eq_iff {one two : Border size} :
    one.canonical = two.canonical ↔ two = one ∨ two = one.reverse := by
  constructor
  · intro same
    rcases one.canonical_eq_or with first | first <;> rcases two.canonical_eq_or with second | second <;>
      rw [first, second] at same
    · exact .inl same.symm
    · exact .inr (by rw [same, Vector.reverse_reverse])
    · exact .inr same.symm
    · exact .inl (Vector.reverse_inj.mp same).symm
  · rintro (rfl | rfl)
    · rfl
    · exact (canonical_reverse one).symm

/-- So it is for borders of any two lengths. -/
theorem canonical_toList_eq_iff {length : Nat} {one : Border size} {two : Border length} :
    one.canonical.toList = two.canonical.toList ↔ two.toList = one.toList ∨ two.toList = one.toList.reverse := by
  by_cases same : size = length
  · subst same
    rw [Vector.toList_inj, canonical_eq_iff, ← Vector.toList_reverse, Vector.toList_inj, Vector.toList_inj]
  · have differ (one : Border size) (two : Border length) : two.toList ≠ one.toList := by
      intro equal
      have lengths := congrArg List.length equal
      rw [Vector.length_toList, Vector.length_toList] at lengths
      exact same lengths.symm
    rw [← Vector.toList_reverse]
    exact iff_of_false (differ _ _).symm (not_or.mpr ⟨differ _ _, differ _ _⟩)

end Border

namespace Picture

variable {size : Nat} {picture image other : Picture size}

/-- The image shows each cell of the picture where it was taken. -/
def Carried (picture : Picture size) (move : Cell size → Cell size) (image : Picture size) : Prop :=
  ∀ cell, image.cell (move cell).1 (move cell).2 = picture.cell cell.1 cell.2

/-- The image shows each cell of the picture where a motion about the middle takes it, which is at a cell. -/
def Moved (picture : Picture size) (motion : ℤ × ℤ → ℤ × ℤ) (image : Picture size) : Prop :=
  ∃ move : Cell size → Cell size, (∀ cell, way (move cell) = motion (way cell)) ∧ picture.Carried move image

theorem Carried.rotate {move : Cell size → Cell size} (carried : picture.Carried move image) :
    picture.Carried (turnedCell ∘ move) image.rotate := by
  intro cell
  rw [← carried cell, Function.comp_apply, turnedCell, cell_rotate, Fin.rev_rev]

theorem Carried.flip {move : Cell size → Cell size} (carried : picture.Carried move image) :
    picture.Carried (mirroredCell ∘ move) image.flip := by
  intro cell
  rw [← carried cell, Function.comp_apply, mirroredCell, cell_flip, Fin.rev_rev]

theorem Carried.unique {move : Cell size → Cell size} (everywhere : Function.Surjective move)
    (one : picture.Carried move image) (two : picture.Carried move other) : image = other := by
  apply ext_cell
  intro row column
  obtain ⟨cell, same⟩ := everywhere (row, column)
  have lit := (one cell).trans (two cell).symm
  rwa [same] at lit

theorem Moved.rotate {motion : ℤ × ℤ → ℤ × ℤ} (moved : picture.Moved motion image) :
    picture.Moved (quarterTurn ∘ motion) image.rotate := by
  obtain ⟨move, ways, carried⟩ := moved
  refine ⟨_, fun cell => ?_, carried.rotate⟩
  rw [Function.comp_apply, Function.comp_apply, way_turnedCell, ways]

theorem Moved.flip {motion : ℤ × ℤ → ℤ × ℤ} (moved : picture.Moved motion image) :
    picture.Moved (reflection ∘ motion) image.flip := by
  obtain ⟨move, ways, carried⟩ := moved
  refine ⟨_, fun cell => ?_, carried.flip⟩
  rw [Function.comp_apply, Function.comp_apply, way_mirroredCell, ways]

/-- The orientations are the images of a picture under the eight motions. -/
theorem moved_orientations (picture : Picture size) :
    List.Forall₂ picture.Moved motions picture.orientations := by
  have none : picture.Moved quarterTurn^[0] picture := ⟨id, fun _ => rfl, fun _ => rfl⟩
  have once : picture.Moved quarterTurn^[1] picture.rotate := none.rotate
  have twice : picture.Moved quarterTurn^[2] picture.rotate.rotate := once.rotate
  have thrice : picture.Moved quarterTurn^[3] picture.rotate.rotate.rotate := twice.rotate
  have all : motions = [0, 1, 2, 3].flatMap fun quarters =>
      [reflection ∘ quarterTurn^[quarters], quarterTurn^[quarters]] := rfl
  rw [all, orientations]
  simp only [List.flatMap_cons, List.flatMap_nil, List.cons_append, List.nil_append]
  exact .cons none.flip (.cons none (.cons once.flip (.cons once (.cons twice.flip (.cons twice
    (.cons thrice.flip (.cons thrice .nil)))))))

/-- The orientations are what the symmetries of the square make of a picture. -/
theorem mem_orientations_iff :
    image ∈ picture.orientations ↔ ∃ move, IsSymmetry move ∧ picture.Carried move image := by
  constructor
  · intro member
    refine images_induction (motive := fun image => ∃ move, IsSymmetry move ∧ picture.Carried move image)
      ⟨id, fun _ _ => rfl, fun _ => rfl⟩ ?_ ?_ member
    · rintro image ⟨move, kept, carried⟩
      exact ⟨_, isSymmetry_turnedCell.comp kept, carried.rotate⟩
    · rintro image ⟨move, kept, carried⟩
      exact ⟨_, isSymmetry_mirroredCell.comp kept, carried.flip⟩
  · rintro ⟨move, kept, carried⟩
    obtain ⟨motion, member, ways⟩ := kept.exists_motion
    obtain ⟨turned, orientation, place, others, shown⟩ := exists_rel_of_mem picture.moved_orientations member
    -- The motion takes each cell to one cell only.
    obtain rfl : place = move := funext fun cell => way_injective ((others cell).trans (ways cell).symm)
    exact Carried.unique kept.surjective shown carried ▸ orientation

theorem perm_borders_of_mem_orientations (member : image ∈ picture.orientations) (id : Nat) :
    (Tile.mk id image).borders.Perm (Tile.mk id picture).borders :=
  Tile.Turned.perm_borders ⟨rfl, member⟩

theorem rel_borders?_of_mem_orientations (member : image ∈ picture.orientations) (id : Nat) :
    Option.Rel List.Perm (Tile.mk id image).borders? (Tile.mk id picture).borders? := by
  unfold Tile.borders?
  split
  · exact .some (perm_borders_of_mem_orientations member id)
  · exact .none

/-- The orientations of a picture are all that the symmetries of the square make of it, and its lit cells and its
canonical borders are counted alike in all of them. -/
structure WholeOrbit (picture : Picture size) : Prop where
  /-- They are the images under the four rotations, each with and without the reflection. -/
  moved : List.Forall₂ picture.Moved motions picture.orientations
  /-- No other symmetry makes another image. -/
  mem_iff image : image ∈ picture.orientations ↔ ∃ move, IsSymmetry move ∧ picture.Carried move image
  /-- Every orientation has the same orientations. -/
  perm : ∀ image ∈ picture.orientations, image.orientations.Perm picture.orientations
  /-- Every orientation has as many lit cells. -/
  litCount_eq : ∀ image ∈ picture.orientations, image.litCount = picture.litCount
  /-- Every orientation has the same canonical borders, each of them as often. -/
  perm_borders : ∀ image ∈ picture.orientations, ∀ id,
    (Tile.mk id image).borders.Perm (Tile.mk id picture).borders
  /-- A picture without rows has no borders to show in any orientation, and other ones show theirs in all. -/
  rel_borders? : ∀ image ∈ picture.orientations, ∀ id,
    Option.Rel List.Perm (Tile.mk id image).borders? (Tile.mk id picture).borders?

end Picture

/-- The orientations of every square picture are all its images under the symmetries of the square. Two borders
have the same canonical form exactly when they are one border, read either way round. -/
theorem orientations_wholeOrbit :
    (∀ {size : Nat} (picture : Picture size), picture.WholeOrbit) ∧
      ∀ {size length : Nat} (one : Border size) (two : Border length),
        one.canonical.toList = two.canonical.toList ↔
          two.toList = one.toList ∨ two.toList = one.toList.reverse := by
  refine ⟨fun picture => ⟨picture.moved_orientations, fun _ => Picture.mem_orientations_iff, ?_, ?_, ?_, ?_⟩, ?_⟩
  · intro image member
    exact Picture.squareMotions.perm_images member
  · intro image member
    exact Picture.litCount_of_mem_orientations member
  · intro image member
    exact Picture.perm_borders_of_mem_orientations member
  · intro image member
    exact Picture.rel_borders?_of_mem_orientations member
  · intro _ _ one two
    exact Border.canonical_toList_eq_iff

/-- A picture without symmetries of its own looks different in each of its orientations. -/
example : ((Picture.ofFn fun row column : Fin 3 => (row.val, column.val) ∈ [(0, 0), (0, 1), (2, 2)]).orientations.map
    fun picture => picture.rows.toList.map Vector.toList).Nodup := by
  decide +kernel

end PuzzleCalendar.Jigsaw
