import Mathlib.Algebra.Group.Nat.Even
import Mathlib.Data.List.Forall2
import PuzzleCalendar.Proofs.Automaton.Generations
import PuzzleCalendar.Proofs.HexFloor.Paths

/-! # Flips and days of the hexagonal floor

A tile is black when an odd number of paths end there, in whatever order the paths and their steps come. The
days change all tiles of the plane at once: each tile has six neighbours, all different, and the black ones
among them decide.
-/

namespace PuzzleCalendar.HexFloor

open Automaton

/-- The same paths in some order, with the steps of each in some order. -/
def Reordered (paths others : List (List Direction)) : Prop :=
  ∃ middle, List.Forall₂ List.Perm paths middle ∧ middle.Perm others

/-- All tiles with their rule: a black tile stays black beside one or two black ones, and a white one turns
black beside two. -/
def plane : Board Tile where
  Beside tile other := ∃ direction, tile.ahead direction = other
  Lives black count := (black → count = 1 ∨ count = 2) ∧ (¬ black → count = 2)

/-- The neighbours of a tile. -/
def neighbours (tile : Tile) : List Tile :=
  Direction.all.map tile.ahead

variable {paths others : List (List Direction)} {black : Std.HashSet Tile} {tile : Tile}

section Flips

theorem mem_flip {other : Tile} :
    other ∈ flip black tile ↔ if tile = other then other ∉ black else other ∈ black := by
  rw [flip]
  by_cases same : tile = other
  · subst same
    by_cases member : tile ∈ black <;> simp [member]
  · by_cases member : tile ∈ black <;> simp [member, same]

/-- A tile that is flipped an odd number of times changes its colour. -/
theorem mem_foldl_flip (tiles : List Tile) (black : Std.HashSet Tile) (tile : Tile) :
    tile ∈ tiles.foldl flip black ↔ (Odd (tiles.count tile) ↔ tile ∉ black) := by
  induction tiles generalizing black with
  | nil => simp
  | cons first rest ih =>
    rw [List.foldl_cons, ih, mem_flip, List.count_cons]
    by_cases same : first = tile
    · simp only [same, if_true, beq_self_eq_true, Nat.odd_add_one]
      tauto
    · simp [same]

theorem blackTiles?_eq_some (tracked : ∀ path ∈ paths, Tracked path) :
    blackTiles? paths = some ((paths.map destination).foldl flip ∅) := by
  have each : ∀ path ∈ paths, walk? path = some (destination path) :=
    fun path member => walk?_eq_some_iff.mpr ⟨tracked path member, rfl⟩
  simp [blackTiles?, mapM_eq_some_map each]

theorem exists_blackTiles?_iff :
    (∃ found, blackTiles? paths = some found) ↔ ∀ path ∈ paths, Tracked path := by
  constructor
  · rintro ⟨found, flipped⟩ path member
    by_contra untracked
    simp [blackTiles?, mapM_eq_none_of_mem member (walk?_eq_none_iff.mpr untracked)] at flipped
  · intro tracked
    exact ⟨_, blackTiles?_eq_some tracked⟩

/-- The black tiles are those where an odd number of paths end. -/
theorem mem_of_blackTiles? (flipped : blackTiles? paths = some black) (tile : Tile) :
    tile ∈ black ↔ Odd (paths.countP fun path => destination path = tile) := by
  rw [blackTiles?_eq_some (exists_blackTiles?_iff.mp ⟨black, flipped⟩), Option.some_inj] at flipped
  have ends : (paths.map destination).count tile = paths.countP fun path => destination path = tile := by
    rw [List.count, List.countP_map]
    rfl
  rw [← flipped, mem_foldl_flip, ends]
  simp

/-- No order changes where the paths end. -/
theorem Reordered.countP_eq (reordered : Reordered paths others) (tile : Tile) :
    (others.countP fun path => destination path = tile) =
      paths.countP fun path => destination path = tile := by
  obtain ⟨middle, steps, perm⟩ := reordered
  rw [← perm.countP_eq]
  clear perm
  induction steps with
  | nil => rfl
  | cons perm _ ih => rw [List.countP_cons, List.countP_cons, ih, destination_perm perm]

end Flips

section Days

theorem ahead_injective (tile : Tile) : Function.Injective tile.ahead := by
  intro one two same
  simp only [Tile.ahead, Tile.mk.injEq, Int.add_right_inj] at same
  cases one <;> cases two <;> simp [Direction.offset] at same ⊢

theorem ahead_opposite (tile : Tile) (direction : Direction) :
    (tile.ahead direction).ahead direction.opposite = tile := by
  cases direction <;> simp [Tile.ahead, Direction.opposite, Direction.offset]

theorem mem_neighbours {other : Tile} : other ∈ neighbours tile ↔ plane.Beside tile other := by
  have all (direction : Direction) : direction ∈ Direction.all := by
    cases direction <;> decide
  simp [neighbours, plane, all]

/-- The automaton of the floor runs on the plane. -/
theorem runsOn_plane : floor.RunsOn plane id neighbours Tile.Held where
  injective := Function.injective_id
  once tile := List.Nodup.map (ahead_injective tile) (by decide)
  mem_iff := mem_neighbours
  symm := by
    rintro tile _ ⟨direction, rfl⟩
    exact ⟨direction.opposite, ahead_opposite tile direction⟩
  found := by
    intro tile held
    have each : ∀ direction ∈ Direction.all, tile.neighbour? direction = some (tile.ahead direction) := by
      intro direction member
      exact neighbour?_eq_some_iff.mpr ⟨held _ (List.mem_map_of_mem member), rfl⟩
    change Direction.all.mapM tile.neighbour? = _
    rw [mapM_eq_some_map each, List.map_id, neighbours]
  missing := by
    intro tile other member outside
    obtain ⟨direction, among, rfl⟩ := List.mem_map.mp member
    apply mapM_eq_none_of_mem among
    rw [Option.eq_none_iff_forall_ne_some]
    intro _ stepped
    exact outside (neighbour?_eq_some_iff.mp stepped).1
  lives_iff := by
    intro alive count
    cases alive <;> simp [floor, plane, or_comm]
  lonely := by
    intro alive
    simp only [plane]
    tauto

theorem shows_id (black : Std.HashSet Tile) : Shows id black {tile | tile ∈ black} := by
  simp [Shows]

end Days

/-- Two paths end at the same tile exactly when the steps of one and those back along the other cancel. The
black tiles are those where an odd number of paths end, in whatever order the paths and their steps come;
they are found exactly when 32 bits hold all tiles on the way, as they do for paths of less than 2³¹ steps.
From any black tiles, the days change all tiles of the plane at once, each by its six neighbours, as long as
32 bits hold the neighbours of all black tiles. -/
theorem blackTiles?_odd_and_days_pointwise (paths : List (List Direction)) (black : Std.HashSet Tile) (days : ℕ) :
    (∀ one two, destination one = destination two ↔ Cancels (one ++ two.map Direction.opposite)) ∧
    ((∃ found, blackTiles? paths = some found) ↔ ∀ path ∈ paths, Tracked path) ∧
    (∀ path : List Direction, path.length < 2147483648 → Tracked path) ∧
    (∀ found, blackTiles? paths = some found → ∀ tile,
      tile ∈ found ↔ Odd (paths.countP fun path => destination path = tile)) ∧
    (∀ others, Reordered paths others → ∀ found again, blackTiles? paths = some found →
      blackTiles? others = some again → ∀ tile, tile ∈ again ↔ tile ∈ found) ∧
    ((∃ later, floor.run? days black = some later) ↔
      ∀ earlier < days, plane.Roomy Tile.Held (plane.generation {tile | tile ∈ black} earlier)) ∧
    (∀ later, floor.run? days black = some later → ∀ tile,
      tile ∈ later ↔ tile ∈ plane.generation {tile | tile ∈ black} days) ∧
    ∀ tile, {other | plane.Beside tile other}.encard = 6 := by
  obtain ⟨held, shown⟩ := runsOn_plane.run?_follows (shows_id black) days
  refine ⟨destination_eq_iff_cancels, exists_blackTiles?_iff, fun _ => tracked_of_length_lt,
    fun found flipped => mem_of_blackTiles? flipped, ?_, held, ?_, fun tile => ?_⟩
  · intro others reordered found again first second tile
    rw [mem_of_blackTiles? second, mem_of_blackTiles? first, reordered.countP_eq]
  · intro later ran tile
    exact (shown later ran).mem_iff Function.injective_id
  · exact runsOn_plane.encard_beside tile

end PuzzleCalendar.HexFloor
