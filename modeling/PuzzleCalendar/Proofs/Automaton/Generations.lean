import Mathlib.Data.Set.Card
import Mathlib.Data.Set.List
import Mathlib.Logic.Function.Iterate
import PuzzleCalendar.Automaton
import PuzzleCalendar.Outcome

/-! # Generations of a board

A board without bounds changes all its places at once, and the rule looks at each place alone. An automaton
that keeps the living cells only, and counts by going from each of them to its neighbours, follows the
board as long as all these neighbours are held; it stops when one of them is not. For that the neighbours
have to be mutual and listed once each, and a place with no living neighbour must not live.
-/

namespace PuzzleCalendar.Automaton

/-- Which places are beside each other, and which of them live on: the rule knows whether a place lives
and how many of those beside it do. -/
structure Board (Place : Type) where
  Beside : Place → Place → Prop
  Lives : Prop → ℕ → Prop

namespace Board

variable {Place : Type}

/-- The living places beside a place. -/
def crowd (board : Board Place) (living : Set Place) (place : Place) : Set Place :=
  {other | board.Beside place other ∧ other ∈ living}

/-- The rule, applied to every place at once. -/
def next (board : Board Place) (living : Set Place) : Set Place :=
  {place | board.Lives (place ∈ living) (board.crowd living place).ncard}

/-- The places that live after some generations. -/
def generation (board : Board Place) (start : Set Place) (generations : ℕ) : Set Place :=
  board.next^[generations] start

/-- All places beside the living ones are held. -/
def Roomy (board : Board Place) (Held : Place → Prop) (living : Set Place) : Prop :=
  ∀ place ∈ living, ∀ other, board.Beside place other → Held other

@[simp] theorem generation_zero (board : Board Place) (start : Set Place) :
    board.generation start 0 = start := rfl

end Board

/-- The automaton keeps a cell for each living place of the board and finds the cells of all places beside
it, if all of them are held. -/
structure RunsOn {Cell Place : Type} (automaton : Automaton Cell) (board : Board Place)
    (cell : Place → Cell) (neighbours : Place → List Place) (Held : Place → Prop) : Prop where
  injective : Function.Injective cell
  once (place : Place) : (neighbours place).Nodup
  mem_iff {place other : Place} : other ∈ neighbours place ↔ board.Beside place other
  symm {place other : Place} : board.Beside place other → board.Beside other place
  found (place : Place) : (∀ other ∈ neighbours place, Held other) →
    automaton.neighbours? (cell place) = some ((neighbours place).map cell)
  missing {place other : Place} : other ∈ neighbours place → ¬ Held other →
    automaton.neighbours? (cell place) = none
  lives_iff (alive : Bool) (count : ℕ) :
    automaton.lives alive count = true ↔ board.Lives (alive = true) count
  lonely (alive : Prop) : ¬ board.Lives alive 0

/-- The cells that are alive are those of the living places. -/
def Shows {Cell Place : Type} [BEq Cell] [Hashable Cell] (cell : Place → Cell)
    (alive : Std.HashSet Cell) (living : Set Place) : Prop :=
  ∀ known, known ∈ alive ↔ ∃ place ∈ living, cell place = known

variable {Cell Place : Type} {automaton : Automaton Cell} {board : Board Place} {cell : Place → Cell}
  {neighbours : Place → List Place} {Held : Place → Prop} {living : Set Place}

section Neighbours

variable [DecidableEq Place]

/-- Going through lists without repetitions comes to a place once for each list that has it. -/
theorem count_flatMap_of_nodup (once : ∀ place, (neighbours place).Nodup) (places : List Place)
    (place : Place) : (places.flatMap neighbours).count place =
      places.countP fun other => decide (place ∈ neighbours other) := by
  induction places with
  | nil => rfl
  | cons first rest ih =>
    rw [List.flatMap_cons, List.count_append, ih, List.countP_cons, Nat.add_comm]
    by_cases member : place ∈ neighbours first
    · rw [List.count_eq_one_of_mem (once first) member, if_pos (decide_eq_true member)]
    · rw [List.count_eq_zero_of_not_mem member, if_neg (by simpa using member)]

/-- Going from each living place to those beside it comes to a place as often as it has living places
beside it. -/
theorem RunsOn.count_flatMap (runs : RunsOn automaton board cell neighbours Held) {places : List Place}
    (once : places.Nodup) (members : ∀ place, place ∈ places ↔ place ∈ living) (place : Place) :
    (places.flatMap neighbours).count place = (board.crowd living place).ncard := by
  have crowd : board.crowd living place =
      (places.filter fun other => decide (place ∈ neighbours other)).toFinset := by
    ext other
    simp only [Board.crowd, Set.mem_ofPred_eq, List.coe_toFinset, List.mem_filter, members,
      decide_eq_true_eq, runs.mem_iff]
    constructor
    · rintro ⟨beside, lives⟩
      exact ⟨lives, runs.symm beside⟩
    · rintro ⟨lives, beside⟩
      exact ⟨runs.symm beside, lives⟩
  rw [count_flatMap_of_nodup runs.once, crowd, Set.ncard_coe_finset,
    List.toFinset_card_of_nodup (once.filter _), List.countP_eq_length_filter]

/-- The places beside a place are those that are listed. -/
theorem RunsOn.encard_beside (runs : RunsOn automaton board cell neighbours Held) (place : Place) :
    {other | board.Beside place other}.encard = (neighbours place).length := by
  have listed : {other | board.Beside place other} = (neighbours place).toFinset := by
    ext other
    simp [runs.mem_iff]
  rw [listed, Set.encard_coe_eq_coe_finsetCard, List.toFinset_card_of_nodup (runs.once place)]

theorem RunsOn.ncard_crowd_le (runs : RunsOn automaton board cell neighbours Held) (living : Set Place)
    (place : Place) : (board.crowd living place).ncard ≤ (neighbours place).length := by
  have within : board.crowd living place ⊆ (neighbours place).toFinset := by
    intro other member
    simpa [runs.mem_iff] using member.1
  calc
    (board.crowd living place).ncard ≤ ((neighbours place).toFinset : Set Place).ncard :=
      Set.ncard_le_ncard within (Finset.finite_toSet _)
    _ = (neighbours place).length := by
      rw [Set.ncard_coe_finset, List.toFinset_card_of_nodup (runs.once place)]

end Neighbours

variable [BEq Cell] [Hashable Cell] {alive later : Std.HashSet Cell}

theorem Shows.mem_iff (shown : Shows cell alive living) (injective : Function.Injective cell)
    {place : Place} : cell place ∈ alive ↔ place ∈ living := by
  rw [shown]
  constructor
  · rintro ⟨_, lives, same⟩
    exact injective same ▸ lives
  · intro lives
    exact ⟨place, lives, rfl⟩

variable [LawfulBEq Cell]

section Shown

/-- A list of places is shown by its cells. -/
theorem shows_ofList (cell : Place → Cell) (places : List Place) :
    Shows cell (Std.HashSet.ofList (places.map cell)) {place | place ∈ places} := by
  intro known
  simp

/-- The living places, each once, in the order of their cells. -/
theorem Shows.exists_places (shown : Shows cell alive living) (injective : Function.Injective cell) :
    ∃ places : List Place, alive.toList = places.map cell ∧ places.Nodup ∧
      ∀ place, place ∈ places ↔ place ∈ living := by
  have covered : alive.toList ∈ Set.range (List.map cell) := by
    rw [Set.range_list_map]
    intro known member
    obtain ⟨place, -, same⟩ := (shown known).mp (Std.HashSet.mem_toList.mp member)
    exact ⟨place, same⟩
  obtain ⟨places, same⟩ := covered
  refine ⟨places, same.symm, ?_, fun place => ?_⟩
  · have once : alive.toList.Nodup := Std.HashSet.distinct_toList.imp (by simp)
    rw [← same] at once
    exact once.of_map
  · rw [← List.mem_map_of_injective injective, same, Std.HashSet.mem_toList, shown.mem_iff injective]

/-- There are as many cells as living places. -/
theorem Shows.encard_eq (shown : Shows cell alive living) (injective : Function.Injective cell) :
    living.encard = alive.size := by
  classical
  obtain ⟨places, listed, once, members⟩ := shown.exists_places injective
  have all : living = places.toFinset := by
    ext place
    simp [members]
  rw [all, Set.encard_coe_eq_coe_finsetCard, List.toFinset_card_of_nodup once,
    ← Std.HashSet.length_toList, listed, List.length_map]

end Shown

/-- The survivors are the cells among the neighbours that the rule lets live. -/
theorem mem_survivors {surroundings : List Cell} {known : Cell} :
    known ∈ automaton.survivors alive surroundings ↔ known ∈ surroundings ∧
      automaton.lives (alive.contains known) (surroundings.count known) = true := by
  simp only [survivors, List.mem_filterMap, Prod.exists, Option.ite_none_right_eq_some, Option.some_inj,
    Std.HashMap.mem_toList_iff_getElem?_eq_some, getElem?_tally_eq_some_iff]
  constructor
  · rintro ⟨_, _, ⟨member, rfl⟩, lives, rfl⟩
    exact ⟨member, lives⟩
  · rintro ⟨member, lives⟩
    exact ⟨known, _, ⟨member, rfl⟩, lives, rfl⟩

namespace RunsOn

variable (runs : RunsOn automaton board cell neighbours Held)

section Step

include runs

/-- A neighbour that is not held leaves no list of the neighbours. -/
theorem surroundings?_eq_none (shown : Shows cell alive living) (cramped : ¬ board.Roomy Held living) :
    automaton.surroundings? alive = none := by
  simp only [Board.Roomy, not_forall] at cramped
  obtain ⟨place, lives, other, beside, outside⟩ := cramped
  have here : cell place ∈ alive.toList :=
    Std.HashSet.mem_toList.mpr ((shown.mem_iff runs.injective).mpr lives)
  have missing := runs.missing (runs.mem_iff.mpr beside) outside
  rw [surroundings?, mapM_eq_none_of_mem here missing]
  rfl

variable [DecidableEq Place]

/-- The neighbours of all living cells, when all of them are held: each place comes as often as it has
living places beside it. -/
theorem exists_surroundings? (shown : Shows cell alive living) (roomy : board.Roomy Held living) :
    ∃ beside : List Place, automaton.surroundings? alive = some (beside.map cell) ∧
      ∀ place, beside.count place = (board.crowd living place).ncard := by
  obtain ⟨places, listed, once, members⟩ := shown.exists_places runs.injective
  refine ⟨places.flatMap neighbours, ?_, runs.count_flatMap once members⟩
  have each (place : Place) (member : place ∈ places) :
      (automaton.neighbours? ∘ cell) place = some ((neighbours place).map cell) := by
    apply runs.found
    intro other beside
    exact roomy place ((members place).mp member) other (runs.mem_iff.mp beside)
  rw [surroundings?, listed, List.mapM_map, mapM_eq_some_map each, Option.map_some, List.map_flatMap,
    List.flatMap_def]

/-- No cell is counted more often than it has neighbours. -/
theorem count_surroundings_le {limit : ℕ} (few : ∀ place, (neighbours place).length ≤ limit)
    (shown : Shows cell alive living) {surroundings : List Cell}
    (counted : automaton.surroundings? alive = some surroundings) (known : Cell) :
    surroundings.count known ≤ limit := by
  by_cases roomy : board.Roomy Held living
  · obtain ⟨beside, found, counts⟩ := runs.exists_surroundings? shown roomy
    obtain rfl := Option.some_inj.mp (found.symm.trans counted)
    by_cases here : ∃ place, cell place = known
    · obtain ⟨place, rfl⟩ := here
      rw [List.count_map_of_injective _ _ runs.injective, counts]
      exact (runs.ncard_crowd_le living place).trans (few place)
    · rw [List.count_eq_zero_of_not_mem]
      · exact Nat.zero_le limit
      · intro member
        obtain ⟨place, -, same⟩ := List.mem_map.mp member
        exact here ⟨place, same⟩
  · rw [runs.surroundings?_eq_none shown roomy] at counted
    contradiction

/-- A cell survives when its place lives in the next generation. -/
theorem mem_survivors_iff (shown : Shows cell alive living) {beside : List Place}
    (counts : ∀ place, beside.count place = (board.crowd living place).ncard) {place : Place} :
    cell place ∈ automaton.survivors alive (beside.map cell) ↔ place ∈ board.next living := by
  have lives : (alive.contains (cell place) = true) = (place ∈ living) := by
    rw [Std.HashSet.contains_iff_mem, shown.mem_iff runs.injective]
  rw [mem_survivors, runs.lives_iff, lives, List.count_map_of_injective _ _ runs.injective, counts,
    List.mem_map_of_injective runs.injective]
  refine ⟨And.right, fun next => ⟨?_, next⟩⟩
  -- Without living places beside it, no place lives.
  by_contra absent
  have none : (board.crowd living place).ncard = 0 := by
    rw [← counts, List.count_eq_zero_of_not_mem absent]
  change board.Lives (place ∈ living) (board.crowd living place).ncard at next
  rw [none] at next
  exact runs.lonely _ next

/-- One step makes the next generation of all places. -/
theorem exists_step? (shown : Shows cell alive living) (roomy : board.Roomy Held living) :
    ∃ later, automaton.step? alive = some later ∧ Shows cell later (board.next living) := by
  obtain ⟨beside, found, counts⟩ := runs.exists_surroundings? shown roomy
  refine ⟨Std.HashSet.ofList (automaton.survivors alive (beside.map cell)), ?_, fun known => ?_⟩
  · simp [step?, found]
  · rw [Std.HashSet.mem_ofList, List.contains_iff_mem]
    constructor
    · intro survives
      obtain ⟨place, -, rfl⟩ := List.mem_map.mp (mem_survivors.mp survives).1
      exact ⟨place, (runs.mem_survivors_iff shown counts).mp survives, rfl⟩
    · rintro ⟨place, next, rfl⟩
      exact (runs.mem_survivors_iff shown counts).mpr next

end Step

section Run

variable [DecidableEq Place] {generations : ℕ}

include runs

/-- As long as all neighbours are held, a run makes one generation after the other. -/
theorem exists_run? (shown : Shows cell alive living)
    (roomy : ∀ earlier < generations, board.Roomy Held (board.generation living earlier)) :
    ∃ later, automaton.run? generations alive = some later ∧
      Shows cell later (board.generation living generations) := by
  induction generations generalizing alive living with
  | zero => exact ⟨alive, rfl, shown⟩
  | succ generations ih =>
    obtain ⟨middle, stepped, shown⟩ := runs.exists_step? shown (roomy 0 (Nat.succ_pos generations))
    obtain ⟨later, ran, shown⟩ := ih shown fun earlier early =>
      roomy (earlier + 1) (Nat.succ_lt_succ early)
    refine ⟨later, ?_, shown⟩
    rw [run?, stepped]
    exact ran

/-- A run stops at a neighbour that is not held. -/
theorem run?_eq_none (shown : Shows cell alive living) {earlier : ℕ} (early : earlier < generations)
    (cramped : ¬ board.Roomy Held (board.generation living earlier)) :
    automaton.run? generations alive = none := by
  induction generations generalizing alive living earlier with
  | zero => contradiction
  | succ generations ih =>
    rw [run?]
    by_cases roomy : board.Roomy Held living
    · obtain ⟨middle, stepped, shown⟩ := runs.exists_step? shown roomy
      rw [stepped]
      cases earlier with
      | zero => contradiction
      | succ earlier => exact ih shown (Nat.lt_of_succ_lt_succ early) cramped
    · rw [step?, runs.surroundings?_eq_none shown roomy]
      rfl

/-- A run makes the generations of the board, and it makes them all exactly when every place beside a
living one is held on the way. -/
theorem run?_follows (shown : Shows cell alive living) (generations : ℕ) :
    ((∃ later, automaton.run? generations alive = some later) ↔
      ∀ earlier < generations, board.Roomy Held (board.generation living earlier)) ∧
    ∀ later, automaton.run? generations alive = some later →
      Shows cell later (board.generation living generations) := by
  by_cases roomy : ∀ earlier < generations, board.Roomy Held (board.generation living earlier)
  · obtain ⟨last, ran, shown⟩ := runs.exists_run? shown roomy
    refine ⟨⟨fun _ => roomy, fun _ => ⟨last, ran⟩⟩, fun later same => ?_⟩
    obtain rfl := Option.some_inj.mp (ran.symm.trans same)
    exact shown
  · have cramped := roomy
    simp only [not_forall] at cramped
    obtain ⟨earlier, early, cramped⟩ := cramped
    have stopped := runs.run?_eq_none shown early cramped
    simp [stopped, roomy]

end Run

end RunsOn

end PuzzleCalendar.Automaton
