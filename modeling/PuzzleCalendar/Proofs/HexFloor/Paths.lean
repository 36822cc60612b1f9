import Mathlib.Algebra.BigOperators.Group.List.Basic
import Mathlib.Algebra.Group.Prod
import Mathlib.Algebra.Ring.Int.Defs
import Mathlib.Data.List.Infix
import Mathlib.Data.List.Perm.Subperm
import PuzzleCalendar.Puzzles.HexFloor

/-! # Paths on the hexagonal floor

A step back takes a step away, and three steps that turn by a third of a circle each lead round a corner
where three tiles meet. Two paths end at the same tile exactly when the steps of one and the opposite steps
of the other can be taken away in this manner, in whatever order they come. A walk follows its path as long
as 32 bits hold the tiles on the way, and they do on any path of less than 2³¹ steps.
-/

namespace PuzzleCalendar.HexFloor

/-- The direction back. -/
def Direction.opposite : Direction → Direction
  | east => west
  | southeast => northwest
  | southwest => northeast
  | west => east
  | northwest => southeast
  | northeast => southwest

/-- The direction after turning clockwise by a third of a circle. -/
def Direction.turned : Direction → Direction
  | east => southwest
  | southeast => west
  | southwest => northwest
  | west => northeast
  | northwest => east
  | northeast => southeast

/-- Steps cancel when each goes with one back or with two others round a corner of the lattice. -/
inductive Cancels : List Direction → Prop
  | nil : Cancels []
  | back {steps : List Direction} (direction : Direction) (rest : Cancels steps) :
      Cancels (direction :: direction.opposite :: steps)
  | round {steps : List Direction} (direction : Direction) (rest : Cancels steps) :
      Cancels (direction :: direction.turned :: direction.turned.turned :: steps)
  | perm {steps others : List Direction} (perm : steps.Perm others) (cancels : Cancels steps) :
      Cancels others

/-- The neighbour of a tile in a direction, on a floor without bounds. -/
def Tile.ahead (tile : Tile) (direction : Direction) : Tile :=
  ⟨tile.east + direction.offset.east, tile.northwest + direction.offset.northwest⟩

/-- The tile at the end of a path, on a floor without bounds. -/
def destination (path : List Direction) : Tile :=
  path.foldl Tile.ahead Tile.reference

/-- 32 bits with a sign hold the steps to the tile. -/
def Tile.Held (tile : Tile) : Prop :=
  (-2147483648 ≤ tile.east ∧ tile.east < 2147483648) ∧
    -2147483648 ≤ tile.northwest ∧ tile.northwest < 2147483648

instance (tile : Tile) : Decidable tile.Held :=
  inferInstanceAs (Decidable (_ ∧ _))

/-- All tiles on the way are held. -/
def Tracked (path : List Direction) : Prop :=
  ∀ before, before <+: path → (destination before).Held

/-- How far steps lead to the east and to the northwest. -/
def lead (steps : List Direction) : ℤ × ℤ :=
  (steps.map fun direction => (direction.offset.east, direction.offset.northwest)).sum

variable {steps others path : List Direction} {tile : Tile} {direction : Direction}

section Lead

theorem lead_cons (direction : Direction) (steps : List Direction) :
    lead (direction :: steps) = (direction.offset.east, direction.offset.northwest) + lead steps := rfl

theorem lead_append (steps others : List Direction) : lead (steps ++ others) = lead steps + lead others := by
  simp [lead]

/-- The order of the steps does not matter for where they lead. -/
theorem lead_perm (perm : steps.Perm others) : lead steps = lead others :=
  (perm.map _).sum_eq

theorem lead_opposite (steps : List Direction) : lead (steps.map Direction.opposite) = -lead steps := by
  induction steps with
  | nil => rfl
  | cons direction steps ih =>
    rw [List.map_cons, lead_cons, lead_cons, ih, neg_add]
    cases direction <;> rfl

/-- A path ends as far from the reference tile as its steps lead. -/
theorem destination_eq (path : List Direction) : destination path = ⟨(lead path).1, (lead path).2⟩ := by
  have onwards (tile : Tile) : path.foldl Tile.ahead tile =
      ⟨tile.east + (lead path).1, tile.northwest + (lead path).2⟩ := by
    induction path generalizing tile with
    | nil => simp [lead]
    | cons direction path ih =>
      rw [List.foldl_cons, ih, lead_cons, Tile.ahead]
      simp only [Prod.fst_add, Prod.snd_add, Int.add_assoc]
  simp [destination, onwards, Tile.reference]

theorem destination_eq_iff (one two : List Direction) :
    destination one = destination two ↔ lead one = lead two := by
  rw [destination_eq, destination_eq, Tile.mk.injEq, Prod.ext_iff]

/-- Where steps lead, by how often each direction comes. -/
theorem lead_eq_count (steps : List Direction) :
    (lead steps).1 = (steps.count .east + steps.count .northeast : ℤ) -
        (steps.count .west + steps.count .southwest) ∧
      (lead steps).2 = (steps.count .northwest + steps.count .northeast : ℤ) -
        (steps.count .southeast + steps.count .southwest) := by
  induction steps with
  | nil => decide
  | cons direction steps ih =>
    rw [lead_cons, Prod.fst_add, Prod.snd_add, ih.1, ih.2]
    cases direction <;> simp [Direction.offset] <;> omega

end Lead

section Cancelling

/-- Steps that cancel lead back. -/
theorem Cancels.lead_eq_zero (cancels : Cancels steps) : lead steps = 0 := by
  induction cancels with
  | nil => rfl
  | back direction _ ih =>
    rw [lead_cons, lead_cons, ih]
    cases direction <;> rfl
  | round direction _ ih =>
    rw [lead_cons, lead_cons, lead_cons, ih]
    cases direction <;> rfl
  | perm perm _ ih => rwa [← lead_perm perm]

theorem Cancels.append (first : Cancels steps) (second : Cancels others) : Cancels (steps ++ others) := by
  induction first with
  | nil => exact second
  | back direction _ ih => exact .back direction ih
  | round direction _ ih => exact .round direction ih
  | perm perm _ ih => exact .perm (perm.append_right others) ih

/-- Steps that lead back, if there are any, have one with its opposite among them or three that lead round a
corner. -/
theorem exists_cancels_subset (back : lead steps = 0) (filled : steps ≠ []) :
    ∃ few, few ⊆ steps ∧ few.Nodup ∧ few ≠ [] ∧ Cancels few := by
  by_contra none
  have pair (direction : Direction) : ¬ (direction ∈ steps ∧ direction.opposite ∈ steps) := by
    intro both
    refine none ⟨_, ?_, ?_, List.cons_ne_nil _ _, .back direction .nil⟩
    · simpa using both
    · cases direction <;> decide
  have corner (direction : Direction) :
      ¬ (direction ∈ steps ∧ direction.turned ∈ steps ∧ direction.turned.turned ∈ steps) := by
    intro all
    refine none ⟨_, ?_, ?_, List.cons_ne_nil _ _, .round direction .nil⟩
    · simpa using all
    · cases direction <;> decide
  obtain ⟨first, member⟩ := List.exists_mem_of_ne_nil steps filled
  -- In numbers of steps: an equation for each coordinate, no pair and no corner, but one step.
  obtain ⟨east, northwest⟩ := lead_eq_count steps
  rw [back] at east northwest
  simp only [← List.count_pos_iff] at pair corner member
  have pairs := And.intro (pair .east) (And.intro (pair .northeast) (pair .northwest))
  have corners := And.intro (corner .east) (corner .west)
  simp only [Direction.opposite, Direction.turned, Prod.fst_zero, Prod.snd_zero] at pairs corners east northwest
  cases first <;> omega

/-- Steps that lead back cancel: without those that cancel among them, the rest leads back as well. -/
theorem cancels_of_lead_eq_zero (back : lead steps = 0) : Cancels steps := by
  induction size : steps.length using Nat.strong_induction_on generalizing steps with
  | _ size ih =>
    by_cases filled : steps = []
    · exact filled ▸ .nil
    · obtain ⟨few, inside, once, nonempty, cancels⟩ := exists_cancels_subset back filled
      obtain ⟨taken, same, sublist⟩ := List.subperm_of_subset once inside
      obtain ⟨rest, all⟩ := sublist.exists_perm_append
      have perm : (few ++ rest).Perm steps := (same.symm.append_right rest).trans all.symm
      have shorter := perm.length_eq
      have positive := List.length_pos_iff.mpr nonempty
      rw [List.length_append] at shorter
      rw [← lead_perm perm, lead_append, cancels.lead_eq_zero, zero_add] at back
      exact .perm perm (cancels.append (ih rest.length (by omega) back rfl))

-- The steps round a corner and a step with the one back, mixed.
example : Cancels [.northwest, .west, .southwest, .east, .east] :=
  cancels_of_lead_eq_zero rfl

/-- Two paths end at the same tile when the steps of one and those back along the other one cancel. -/
theorem destination_eq_iff_cancels (one two : List Direction) :
    destination one = destination two ↔ Cancels (one ++ two.map Direction.opposite) := by
  have together : lead (one ++ two.map Direction.opposite) = 0 ↔ lead one = lead two := by
    rw [lead_append, lead_opposite, add_neg_eq_zero]
  rw [destination_eq_iff, ← together]
  exact ⟨cancels_of_lead_eq_zero, Cancels.lead_eq_zero⟩

end Cancelling

section Walking

theorem destination_concat (path : List Direction) (direction : Direction) :
    destination (path ++ [direction]) = (destination path).ahead direction := by
  simp [destination]

theorem destination_perm (perm : steps.Perm others) : destination steps = destination others :=
  (destination_eq_iff _ _).mpr (lead_perm perm)

/-- A step leads to the tile ahead when 32 bits hold it, and nowhere otherwise. -/
theorem neighbour?_eq_some_iff {other : Tile} :
    tile.neighbour? direction = some other ↔ (tile.ahead direction).Held ∧ tile.ahead direction = other := by
  simp only [Tile.neighbour?, Option.bind_eq_bind, Option.pure_def, Option.bind_eq_some_iff,
    Number.int32?_eq_some_iff, Option.some_inj]
  constructor
  · rintro ⟨_, ⟨rfl, east⟩, _, ⟨rfl, northwest⟩, rfl⟩
    exact ⟨⟨east, northwest⟩, rfl⟩
  · rintro ⟨⟨east, northwest⟩, rfl⟩
    exact ⟨_, ⟨rfl, east⟩, _, ⟨rfl, northwest⟩, rfl⟩

theorem tracked_concat_iff : Tracked (path ++ [direction]) ↔
    Tracked path ∧ (destination (path ++ [direction])).Held := by
  simp only [Tracked, List.prefix_concat_iff]
  constructor
  · intro held
    exact ⟨fun before early => held before (.inr early), held _ (.inl rfl)⟩
  · rintro ⟨early, last⟩ before (rfl | inside)
    · exact last
    · exact early before inside

/-- A walk gives the destination when all tiles on the way are held, and nothing otherwise. -/
theorem walk?_eq_some_iff : walk? path = some tile ↔ Tracked path ∧ destination path = tile := by
  induction path using List.reverseRecOn generalizing tile with
  | nil =>
    have here : Tracked [] := by
      intro before early
      rw [List.prefix_nil.mp early]
      decide
    simp [walk?, destination, here]
  | append_singleton path direction ih =>
    have split : walk? (path ++ [direction]) = (walk? path).bind (·.neighbour? direction) := by
      simp [walk?]
    rw [split, Option.bind_eq_some_iff, tracked_concat_iff]
    simp only [ih, neighbour?_eq_some_iff, destination_concat]
    constructor
    · rintro ⟨_, ⟨tracked, rfl⟩, held, rfl⟩
      exact ⟨⟨tracked, held⟩, rfl⟩
    · rintro ⟨⟨tracked, held⟩, rfl⟩
      exact ⟨_, ⟨tracked, rfl⟩, held, rfl⟩

theorem walk?_eq_none_iff : walk? path = none ↔ ¬ Tracked path := by
  rw [Option.eq_none_iff_forall_ne_some]
  simp only [ne_eq, walk?_eq_some_iff, not_and]
  exact ⟨fun never tracked => never _ tracked rfl, fun untracked _ tracked => absurd tracked untracked⟩

/-- No tile is further away than there are steps. -/
theorem abs_destination_le (path : List Direction) :
    (-(path.length : ℤ) ≤ (destination path).east ∧ (destination path).east ≤ path.length) ∧
      -(path.length : ℤ) ≤ (destination path).northwest ∧ (destination path).northwest ≤ path.length := by
  induction path using List.reverseRecOn with
  | nil => decide
  | append_singleton path direction ih =>
    rw [destination_concat, List.length_append, List.length_singleton]
    cases direction <;> simp only [Tile.ahead, Direction.offset] <;> omega

/-- Paths of less than 2³¹ steps are tracked. -/
theorem tracked_of_length_lt (short : path.length < 2147483648) : Tracked path := by
  intro before early
  have near := abs_destination_le before
  have fewer := early.length_le
  exact ⟨⟨by omega, by omega⟩, by omega, by omega⟩

end Walking

end PuzzleCalendar.HexFloor
