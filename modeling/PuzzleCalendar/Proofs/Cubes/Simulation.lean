import Mathlib.Algebra.Order.Group.Abs
import Mathlib.Algebra.Order.Group.Int
import Mathlib.Data.List.OfFn
import Mathlib.Data.Fintype.Defs
import PuzzleCalendar.Proofs.Automaton.Generations
import PuzzleCalendar.Puzzles.Cubes

/-! # Simulation of the cubes

The cubes are the integer points of a space, and a cube has 3ⁿ - 1 neighbours in n dimensions. The steps of
a simulation list each of them once, so the simulation makes one generation of the whole space after the
other and counts the active cubes at the end, as long as 32 bits hold all coordinates. No cube is counted
more often than it has neighbours, which leaves the counts below 256 in up to four dimensions.
-/

namespace PuzzleCalendar.Cubes

open Automaton

variable {dimensions : ℕ}

/-- The cubes differ, and by at most one along every axis. -/
def Touches (cube other : Fin dimensions → ℤ) : Prop :=
  other ≠ cube ∧ ∀ axis, |other axis - cube axis| ≤ 1

/-- 32 bits with a sign hold all coordinates of the cube. -/
def Held (cube : Fin dimensions → ℤ) : Prop :=
  ∀ axis, -2147483648 ≤ cube axis ∧ cube axis < 2147483648

/-- All cubes with their rule: three active neighbours make a cube active, and two keep it so. -/
def space (dimensions : ℕ) : Board (Fin dimensions → ℤ) where
  Beside := Touches
  Lives active count := count = 3 ∨ active ∧ count = 2

/-- The cube of a cell of the slice: it lies at zero along all axes but the first two. -/
def placed (dimensions : ℕ) (cell : ℤ × ℤ) (axis : Fin dimensions) : ℤ :=
  match axis.val with
  | 0 => cell.1
  | 1 => cell.2
  | _ => 0

/-- The cubes of a slice. -/
def start (dimensions : ℕ) (slice : List (ℤ × ℤ)) : Set (Fin dimensions → ℤ) :=
  {cube | cube ∈ slice.map (placed dimensions)}

/-- The cube a step away. -/
def moved (cube : Fin dimensions → ℤ) (step : Cube) (axis : Fin dimensions) : ℤ :=
  cube axis + step.getD axis 0

/-- The neighbours of a cube. -/
def neighbours (cube : Fin dimensions → ℤ) : List (Fin dimensions → ℤ) :=
  (neighbourSteps dimensions).map (moved cube)

section Steps

variable {step : Cube}

theorem mem_steps : step ∈ steps dimensions ↔
    step.length = dimensions ∧ ∀ change ∈ step, |change| ≤ 1 := by
  simp only [steps, List.mem_map, List.mem_range, Nat.pow_eq]
  induction dimensions generalizing step with
  | zero => simp +contextual [stepOf, List.length_eq_zero_iff, eq_comm]
  | succ dimensions ih =>
    rw [Nat.pow_succ]
    constructor
    · rintro ⟨code, below, rfl⟩
      obtain ⟨length, near⟩ := ih.mp ⟨code / 3, by omega, rfl⟩
      rw [stepOf, List.length_cons, length, List.forall_mem_cons, abs_le]
      exact ⟨rfl, by omega, near⟩
    · rintro ⟨length, near⟩
      cases step with
      | nil => contradiction
      | cons first rest =>
        obtain ⟨small, near⟩ := List.forall_mem_cons.mp near
        obtain ⟨code, below, rfl⟩ := ih.mpr ⟨Nat.succ.inj length, near⟩
        rw [abs_le] at small
        refine ⟨3 * code + (first + 1).toNat, by omega, ?_⟩
        have higher : (3 * code + (first + 1).toNat) / 3 = code := by omega
        rw [stepOf, higher]
        congr 1
        omega

theorem length_steps (dimensions : ℕ) : (steps dimensions).length = 3 ^ dimensions := by
  rw [steps, List.length_map, List.length_range, Nat.pow_eq]

/-- Numbers that code the same step are the same. -/
theorem eq_of_stepOf {one two : ℕ} (oneBelow : one < 3 ^ dimensions) (twoBelow : two < 3 ^ dimensions)
    (same : stepOf dimensions one = stepOf dimensions two) : one = two := by
  induction dimensions generalizing one two with
  | zero =>
    rw [Nat.pow_zero] at oneBelow twoBelow
    omega
  | succ dimensions ih =>
    rw [Nat.pow_succ] at oneBelow twoBelow
    rw [stepOf, stepOf, List.cons.injEq] at same
    have higher : one / 3 = two / 3 := ih (by omega) (by omega) same.2
    omega

theorem nodup_steps (dimensions : ℕ) : (steps dimensions).Nodup := by
  refine List.nodup_range.map_on fun one oneMember two twoMember => ?_
  exact eq_of_stepOf (List.mem_range.mp oneMember) (List.mem_range.mp twoMember)

/-- The only step that leads to no neighbour is the one that stays. -/
theorem neighbourSteps_eq (dimensions : ℕ) :
    neighbourSteps dimensions = (steps dimensions).erase (List.replicate dimensions 0) := by
  rw [(nodup_steps dimensions).erase_eq_filter, neighbourSteps]
  refine List.filter_congr fun step member => ?_
  rw [Bool.eq_iff_iff]
  simp [List.eq_replicate_iff, (mem_steps.mp member).1]

theorem mem_neighbourSteps : step ∈ neighbourSteps dimensions ↔ step ≠ List.replicate dimensions 0 ∧
    step.length = dimensions ∧ ∀ change ∈ step, |change| ≤ 1 := by
  rw [neighbourSteps_eq, (nodup_steps dimensions).mem_erase_iff, mem_steps]

theorem length_neighbourSteps (dimensions : ℕ) :
    (neighbourSteps dimensions).length = 3 ^ dimensions - 1 := by
  have still : List.replicate dimensions 0 ∈ steps dimensions := by
    simp +contextual [mem_steps, List.mem_replicate]
  rw [neighbourSteps_eq, List.length_erase_of_mem still, length_steps]

theorem nodup_neighbourSteps (dimensions : ℕ) : (neighbourSteps dimensions).Nodup :=
  (nodup_steps dimensions).filter _

end Steps

section Moves

variable {cube other : Fin dimensions → ℤ} {step : Cube}

/-- Each step of the right length leads to a cube of its own. -/
theorem eq_ofFn_of_moved (cube : Fin dimensions → ℤ) (length : step.length = dimensions) :
    step = List.ofFn fun axis => moved cube step axis - cube axis := by
  refine List.ext_getElem (by simp [length]) fun axis inside _ => ?_
  simp [moved, inside]

theorem moved_ofFn (cube other : Fin dimensions → ℤ) :
    moved cube (List.ofFn fun axis => other axis - cube axis) = other := by
  funext axis
  simp [moved]

theorem zip_ofFn (length : step.length = dimensions) :
    (List.ofFn cube).zip step = List.ofFn fun axis => (cube axis, step.getD axis 0) := by
  refine List.ext_getElem (by simp [length]) fun axis inside _ => ?_
  have there : axis < step.length := by
    rw [List.length_zip] at inside
    omega
  simp [there]

/-- A step leads to the cube that it moves to, where this is held. -/
theorem shift?_ofFn_of_held (length : step.length = dimensions) (held : Held (moved cube step)) :
    shift? (List.ofFn cube) step = some (List.ofFn (moved cube step)) := by
  rw [shift?, zip_ofFn length]
  have each : ∀ pair ∈ List.ofFn fun axis => (cube axis, step.getD axis 0),
      Number.int32? (pair.1 + pair.2) = some (pair.1 + pair.2) := by
    intro pair member
    obtain ⟨axis, rfl⟩ := List.mem_ofFn.mp member
    exact if_pos (held axis)
  rw [mapM_eq_some_map each, List.map_ofFn]
  rfl

theorem shift?_ofFn_of_not_held (length : step.length = dimensions)
    (outside : ¬ Held (moved cube step)) : shift? (List.ofFn cube) step = none := by
  obtain ⟨axis, far⟩ := not_forall.mp outside
  rw [shift?, zip_ofFn length]
  exact mapM_eq_none_of_mem (List.mem_ofFn.mpr ⟨axis, rfl⟩) (if_neg far)

theorem mem_neighbours : other ∈ neighbours cube ↔ Touches cube other := by
  rw [neighbours, List.mem_map]
  constructor
  · rintro ⟨step, member, rfl⟩
    obtain ⟨moves, length, near⟩ := mem_neighbourSteps.mp member
    have same := eq_ofFn_of_moved cube length
    refine ⟨fun stays => moves ?_, fun axis => near _ ?_⟩
    · rw [same, stays]
      simp
    · rw [same]
      exact List.mem_ofFn.mpr ⟨axis, by rw [← same]⟩
  · rintro ⟨different, near⟩
    refine ⟨_, mem_neighbourSteps.mpr ⟨fun stays => different ?_, ?_, ?_⟩, moved_ofFn cube other⟩
    · rw [← moved_ofFn cube other, stays]
      funext axis
      simp [moved]
    · exact List.length_ofFn
    · intro change member
      obtain ⟨axis, rfl⟩ := List.mem_ofFn.mp member
      exact near axis

theorem nodup_neighbours (cube : Fin dimensions → ℤ) : (neighbours cube).Nodup := by
  refine (nodup_neighbourSteps dimensions).map_on fun one memberOne two memberTwo same => ?_
  rw [eq_ofFn_of_moved cube (mem_neighbourSteps.mp memberOne).2.1, same]
  exact (eq_ofFn_of_moved cube (mem_neighbourSteps.mp memberTwo).2.1).symm

theorem length_neighbours (cube : Fin dimensions → ℤ) : (neighbours cube).length = 3 ^ dimensions - 1 := by
  rw [neighbours, List.length_map, length_neighbourSteps]

end Moves

/-- The automaton of the cubes runs on the space. -/
theorem runsOn_space (dimensions : ℕ) :
    (automaton dimensions).RunsOn (space dimensions) List.ofFn neighbours Held where
  injective := List.ofFn_injective
  once := nodup_neighbours
  mem_iff := mem_neighbours
  symm := by
    rintro place other ⟨different, near⟩
    exact ⟨different.symm, fun axis => abs_sub_comm (place axis) _ ▸ near axis⟩
  found := by
    intro cube held
    have each : ∀ step ∈ neighbourSteps dimensions,
        shift? (List.ofFn cube) step = some (List.ofFn (moved cube step)) := by
      intro step member
      apply shift?_ofFn_of_held (mem_neighbourSteps.mp member).2.1
      exact held _ (List.mem_map_of_mem member)
    change (neighbourSteps dimensions).mapM (shift? (List.ofFn cube)) = _
    rw [mapM_eq_some_map each, neighbours, List.map_map]
    rfl
  missing := by
    intro cube other member outside
    obtain ⟨step, among, rfl⟩ := List.mem_map.mp member
    apply mapM_eq_none_of_mem among
    exact shift?_ofFn_of_not_held (mem_neighbourSteps.mp among).2.1 outside
  lives_iff := by
    intro alive count
    simp [automaton, space, and_comm]
  lonely := by
    intro alive
    simp [space]

theorem embed_eq (two : 2 ≤ dimensions) (cell : ℤ × ℤ) :
    embed dimensions cell = List.ofFn (placed dimensions cell) := by
  obtain ⟨others, rfl⟩ := Nat.exists_eq_add_of_le' two
  rw [List.ofFn_succ, List.ofFn_succ]
  have flat : (fun axis : Fin others => placed (others + 2) cell axis.succ.succ) = fun _ => 0 := rfl
  rw [flat, List.ofFn_const]
  rfl

/-- The simulation starts from the cubes of the slice. -/
theorem shows_start (two : 2 ≤ dimensions) (slice : List (ℤ × ℤ)) :
    Shows List.ofFn (Std.HashSet.ofList (slice.map (embed dimensions))) (start dimensions slice) := by
  have cells : slice.map (embed dimensions) = (slice.map (placed dimensions)).map List.ofFn := by
    rw [List.map_map]
    exact List.map_congr_left fun cell _ => embed_eq two cell
  rw [cells]
  exact shows_ofList List.ofFn _

section Reach

variable {living : Set (Fin dimensions → ℤ)} {reach : ℤ}

/-- In one generation the active cubes spread by one along each axis. -/
theorem abs_le_of_mem_next (near : ∀ cube ∈ living, ∀ axis, |cube axis| ≤ reach)
    {cube : Fin dimensions → ℤ} (active : cube ∈ (space dimensions).next living) (axis : Fin dimensions) :
    |cube axis| ≤ reach + 1 := by
  have crowded : ((space dimensions).crowd living cube).ncard ≠ 0 := by
    intro none
    change (space dimensions).Lives _ _ at active
    rw [none] at active
    exact (runsOn_space dimensions).lonely _ active
  obtain ⟨other, touches, lives⟩ := Set.nonempty_of_ncard_ne_zero crowded
  have beside := abs_le.mp (touches.2 axis)
  have inside := abs_le.mp (near other lives axis)
  rw [abs_le]
  omega

theorem abs_le_of_mem_generation (near : ∀ cube ∈ living, ∀ axis, |cube axis| ≤ reach) (cycles : ℕ) :
    ∀ cube ∈ (space dimensions).generation living cycles, ∀ axis, |cube axis| ≤ reach + cycles := by
  induction cycles generalizing living reach with
  | zero => simpa using near
  | succ cycles ih =>
    intro cube active axis
    have spread := ih (fun cube active => abs_le_of_mem_next near active) cube active axis
    push_cast
    omega

/-- Cubes that start far enough inside stay held with all their neighbours. -/
theorem roomy_of_near {slice : List (ℤ × ℤ)} {cycles : ℕ}
    (near : ∀ cell ∈ slice, |cell.1| + cycles < 2147483648 ∧ |cell.2| + cycles < 2147483648)
    {earlier : ℕ} (early : earlier < cycles) : (space dimensions).Roomy Held
      ((space dimensions).generation (start dimensions slice) earlier) := by
  have starts : ∀ cube ∈ start dimensions slice, ∀ axis, |cube axis| ≤ 2147483647 - cycles := by
    intro cube member axis
    obtain ⟨cell, inside, rfl⟩ := List.mem_map.mp member
    have bounds := near cell inside
    have positive := abs_nonneg cell.1
    unfold placed
    split
    · omega
    · omega
    · rw [abs_zero]
      omega
  intro cube active other touches axis
  have inside := abs_le.mp (abs_le_of_mem_generation starts earlier cube active axis)
  have beside := abs_le.mp (touches.2 axis)
  omega

end Reach

/-- In two or more dimensions the simulation counts the cubes that are active after all cycles. -/
theorem simulate?_eq_some_iff (two : 2 ≤ dimensions) (slice : List (ℤ × ℤ)) (cycles count : ℕ) :
    simulate? dimensions slice cycles = some count ↔
      (∀ earlier < cycles, (space dimensions).Roomy Held
        ((space dimensions).generation (start dimensions slice) earlier)) ∧
      ((space dimensions).generation (start dimensions slice) cycles).encard = count := by
  have runs := runsOn_space dimensions
  obtain ⟨held, shown⟩ := runs.run?_follows (shows_start two slice) cycles
  rw [← held]
  simp only [simulate?, Option.bind_eq_bind, Option.bind_eq_some_iff, Option.pure_def, Option.some_inj]
  constructor
  · rintro ⟨later, ran, rfl⟩
    exact ⟨⟨later, ran⟩, (shown later ran).encard_eq runs.injective⟩
  · rintro ⟨⟨later, ran⟩, counted⟩
    refine ⟨later, ran, ?_⟩
    rw [(shown later ran).encard_eq runs.injective] at counted
    exact_mod_cast counted

/-- No count of a cycle is greater than the number of neighbours, whatever part of it is done. -/
theorem getD_tally_le (two : 2 ≤ dimensions) {slice : List (ℤ × ℤ)} {cycles : ℕ}
    {alive : Std.HashSet Cube} {surroundings counted : List Cube}
    (ran : (automaton dimensions).run? cycles (.ofList (slice.map (embed dimensions))) = some alive)
    (found : (automaton dimensions).surroundings? alive = some surroundings)
    (part : counted.Subperm surroundings) (cube : Cube) :
    (tally counted).getD cube 0 ≤ 3 ^ dimensions - 1 := by
  have runs := runsOn_space dimensions
  have shown := (runs.run?_follows (shows_start two slice) cycles).2 alive ran
  rw [getD_tally]
  calc
    counted.count cube ≤ surroundings.count cube := part.count_le cube
    _ ≤ 3 ^ dimensions - 1 :=
      runs.count_surroundings_le (fun cube => (length_neighbours cube).le) shown found cube

/-- In two to four dimensions the simulation gives a number exactly when 32 bits hold all neighbours of
active cubes in all its cycles, and then it is the number of cubes that are active after changing the whole
space cycle by cycle. A slice that starts further from the limits than there are cycles gives one. Every
cube has 3ⁿ - 1 neighbours, and whatever part of the neighbours is counted, in whatever order, eight bits
hold all counts. -/
theorem simulate?_counts_generation (two : 2 ≤ dimensions) (four : dimensions ≤ 4)
    (slice : List (ℤ × ℤ)) (cycles : ℕ) :
    (∀ count, simulate? dimensions slice cycles = some count ↔
      (∀ earlier < cycles, (space dimensions).Roomy Held
        ((space dimensions).generation (start dimensions slice) earlier)) ∧
      ((space dimensions).generation (start dimensions slice) cycles).encard = count) ∧
    ((∀ cell ∈ slice, |cell.1| + cycles < 2147483648 ∧ |cell.2| + cycles < 2147483648) →
      ∃ count, simulate? dimensions slice cycles = some count) ∧
    (∀ cube : Fin dimensions → ℤ, {other | Touches cube other}.encard = (3 ^ dimensions - 1 : ℕ)) ∧
    ∀ earlier alive surroundings counted cube,
      (automaton dimensions).run? earlier (.ofList (slice.map (embed dimensions))) = some alive →
      (automaton dimensions).surroundings? alive = some surroundings → counted.Subperm surroundings →
      (tally counted).getD cube 0 < 256 := by
  have runs := runsOn_space dimensions
  refine ⟨simulate?_eq_some_iff two slice cycles, fun near => ?_, fun cube => ?_, ?_⟩
  · obtain ⟨later, ran, shown⟩ := runs.exists_run? (shows_start two slice) fun _ => roomy_of_near near
    refine ⟨later.size, (simulate?_eq_some_iff two slice cycles _).mpr ⟨fun _ => roomy_of_near near, ?_⟩⟩
    exact shown.encard_eq runs.injective
  · exact (runs.encard_beside cube).trans (by rw [length_neighbours])
  · intro earlier alive surroundings counted cube ran found part
    calc
      (tally counted).getD cube 0 ≤ 3 ^ dimensions - 1 := getD_tally_le two ran found part cube
      _ < 3 ^ 4 := Nat.sub_one_lt_of_le (Nat.pow_pos (by decide)) (Nat.pow_le_pow_right (by decide) four)
      _ < 256 := by decide

/-- A glider in four dimensions, with one of its cells twice. -/
theorem simulate?_counts_generation_glider : 2 ≤ 4 ∧ 4 ≤ 4 ∧
    let slice := [(1, 0), (2, 1), (0, 2), (1, 2), (2, 2), (1, 0)]
    (∀ count, simulate? 4 slice 6 = some count ↔
      (∀ earlier < 6, (space 4).Roomy Held ((space 4).generation (start 4 slice) earlier)) ∧
      ((space 4).generation (start 4 slice) 6).encard = count) ∧
    (∃ count, simulate? 4 slice 6 = some count) ∧
    (∀ cube : Fin 4 → ℤ, {other | Touches cube other}.encard = 80) ∧
    ∀ earlier alive surroundings counted cube,
      (automaton 4).run? earlier (.ofList (slice.map (embed 4))) = some alive →
      (automaton 4).surroundings? alive = some surroundings → counted.Subperm surroundings →
      (tally counted).getD cube 0 < 256 := by
  obtain ⟨counts, near, beside, narrow⟩ := simulate?_counts_generation (by decide : 2 ≤ 4)
    (by decide) [(1, 0), (2, 1), (0, 2), (1, 2), (2, 2), (1, 0)] 6
  exact ⟨by decide, by decide, counts, near (by decide), beside, narrow⟩

end PuzzleCalendar.Cubes
