import Mathlib.Algebra.BigOperators.Group.List.Basic
import Mathlib.Algebra.Ring.Int.Defs
import Mathlib.Data.List.NodupEquivFin
import PuzzleCalendar.Puzzles.Console

/-! # Halting of the handheld console

The console decides whether a program halts: it stops a run at the first instruction that comes a second
time. A machine that keeps no record and comes to an instruction again goes round forever, since where
it goes depends on the counter alone. Until then no instruction is executed twice, which bounds the
number of steps, and with it the accumulator.
-/

namespace PuzzleCalendar.Console

/-- The argument of an instruction. -/
def Instruction.argument : Instruction → Int
  | acc argument | jmp argument | nop argument => argument

/-- What an instruction adds to the accumulator. -/
def Instruction.gain : Instruction → Int
  | acc argument => argument
  | jmp _ | nop _ => 0

/-- How far an instruction moves the counter. -/
def Instruction.offset : Instruction → Int
  | jmp argument => argument
  | acc _ | nop _ => 1

/-- The argument is an integer of 64 bits. -/
def Instruction.InWord (instruction : Instruction) : Prop :=
  -2 ^ 63 ≤ instruction.argument ∧ instruction.argument < 2 ^ 63

instance (instruction : Instruction) : Decidable instruction.InWord :=
  inferInstanceAs (Decidable (_ ∧ _))

/-- The accumulator is an integer of 128 bits, and a counter that is not negative is a word of 64. -/
def State.InWords (state : State) : Prop :=
  -2 ^ 127 ≤ state.accumulator ∧ state.accumulator < 2 ^ 127 ∧ state.counter < 2 ^ 64

/-- The state of the machine that keeps no record, after some steps; none if it has left the program
before. -/
def stateAfter (program : Array Instruction) : Nat → Option State
  | 0 => some State.initial
  | steps + 1 => (stateAfter program steps).bind (step? program)

/-- The counter stands before the first instruction or behind the last one. -/
def Outside (program : Array Instruction) (state : State) : Prop :=
  state.counter < 0 ∨ program.size ≤ state.counter

/-- The places of the instructions that are executed in the first steps. -/
def executed (program : Array Instruction) (steps : Nat) : List Nat :=
  (List.range steps).filterMap fun earlier =>
    (stateAfter program earlier).map fun state => state.counter.toNat

/-- The sum of what the instructions at some places add to the accumulator. -/
def gained (program : Array Instruction) (places : List Nat) : Int :=
  (places.map fun place => (program[place]?.map Instruction.gain).getD 0).sum

variable {program : Array Instruction} {state next final : State} {steps earlier place : Nat}

section Machine

theorem Instruction.apply_eq (instruction : Instruction) (state : State) :
    instruction.apply state =
      ⟨state.counter + instruction.offset, state.accumulator + instruction.gain⟩ := by
  cases instruction <;> simp [apply, offset, gain]

/-- A step executes the instruction at the counter. -/
theorem step?_eq_some_iff : step? program state = some next ↔ 0 ≤ state.counter ∧
    ∃ instruction, program[state.counter.toNat]? = some instruction ∧
      instruction.apply state = next := by
  unfold step?
  split
  · simp
    omega
  · rename_i inside
    simp [Option.map_eq_some_iff, Int.not_lt.mp inside]

theorem step?_eq_none_iff : step? program state = none ↔ Outside program state := by
  unfold step? Outside
  split
  · rename_i before
    simp [before]
  · simp only [Option.map_eq_none_iff, Array.getElem?_eq_none_iff]
    omega

/-- A state whose counter stands in the program has a next one. -/
theorem exists_step?_eq_some (inside : ¬ Outside program state) :
    ∃ next, step? program state = some next :=
  Option.ne_none_iff_exists'.mp (mt step?_eq_none_iff.mp inside)

theorem stateAfter_succ_eq_some_iff : stateAfter program (steps + 1) = some next ↔
    ∃ state, stateAfter program steps = some state ∧ step? program state = some next :=
  Option.bind_eq_some_iff

/-- A machine that has come so far has come through all earlier steps. -/
theorem exists_stateAfter_of_le (reached : stateAfter program steps = some state)
    (early : earlier ≤ steps) : ∃ before, stateAfter program earlier = some before := by
  induction steps generalizing state with
  | zero => exact ⟨state, by rwa [Nat.le_zero.mp early]⟩
  | succ steps ih =>
    rcases Nat.of_le_succ early with early | rfl
    · obtain ⟨before, reached, _⟩ := stateAfter_succ_eq_some_iff.mp reached
      exact ih reached early
    · exact ⟨state, reached⟩

theorem executed_succ (reached : stateAfter program steps = some state) :
    executed program (steps + 1) = executed program steps ++ [state.counter.toNat] := by
  simp [executed, List.range_succ, reached]

theorem length_executed (reached : stateAfter program steps = some state) :
    (executed program steps).length = steps := by
  induction steps generalizing state with
  | zero => rfl
  | succ steps ih =>
    obtain ⟨before, reached, _⟩ := stateAfter_succ_eq_some_iff.mp reached
    simp [executed_succ reached, ih reached]

/-- Only places of the program are executed. -/
theorem lt_size_of_mem_executed (reached : stateAfter program steps = some state)
    (member : place ∈ executed program steps) : place < program.size := by
  induction steps generalizing state with
  | zero => simp [executed] at member
  | succ steps ih =>
    obtain ⟨before, reached, stepped⟩ := stateAfter_succ_eq_some_iff.mp reached
    rw [executed_succ reached, List.mem_append, List.mem_singleton] at member
    rcases member with member | rfl
    · exact ih reached member
    · obtain ⟨_, instruction, found, _⟩ := step?_eq_some_iff.mp stepped
      exact (Array.getElem?_eq_some_iff.mp found).1

theorem mem_executed_iff : place ∈ executed program steps ↔
    ∃ earlier < steps, ∃ state, stateAfter program earlier = some state ∧
      state.counter.toNat = place := by
  simp [executed, Option.map_eq_some_iff]

theorem gained_concat (places : List Nat) {instruction : Instruction}
    (found : program[place]? = some instruction) :
    gained program (places ++ [place]) = gained program places + instruction.gain := by
  simp [gained, found]

/-- The accumulator is the sum of what the executed instructions add. -/
theorem accumulator_eq_gained (reached : stateAfter program steps = some state) :
    state.accumulator = gained program (executed program steps) := by
  induction steps generalizing state with
  | zero =>
    obtain rfl := Option.some.inj reached
    rfl
  | succ steps ih =>
    obtain ⟨before, reachedBefore, stepped⟩ := stateAfter_succ_eq_some_iff.mp reached
    obtain ⟨_, instruction, found, rfl⟩ := step?_eq_some_iff.mp stepped
    rw [executed_succ reachedBefore, gained_concat _ found, ← ih reachedBefore, Instruction.apply_eq]

/-- Where a step leads depends on the counter alone. -/
theorem map_counter_step? {other : State} (same : state.counter = other.counter) :
    (step? program state).map State.counter = (step? program other).map State.counter := by
  unfold step?
  rw [same]
  split
  · rfl
  · simp [Option.map_map, Function.comp_def, Instruction.apply_eq, same]

/-- Two states of a run with one counter go on alike. -/
theorem map_counter_stateAfter {first second : Nat}
    (same : (stateAfter program first).map State.counter =
      (stateAfter program second).map State.counter) (more : Nat) :
    (stateAfter program (first + more)).map State.counter =
      (stateAfter program (second + more)).map State.counter := by
  induction more with
  | zero => exact same
  | succ more ih =>
    rw [← Nat.add_assoc, ← Nat.add_assoc, stateAfter, stateAfter]
    cases one : stateAfter program (first + more) with
    | none =>
      rw [one, Option.map_none, eq_comm, Option.map_eq_none_iff] at ih
      rw [ih]
    | some state =>
      rw [one, Option.map_some, eq_comm, Option.map_eq_some_iff] at ih
      obtain ⟨other, two, counters⟩ := ih
      rw [two]
      exact map_counter_step? counters.symm

/-- A machine that comes to an instruction again never leaves the program. -/
theorem stateAfter_ne_none_of_mem (reached : stateAfter program steps = some state)
    (inside : ¬ Outside program state) (again : state.counter.toNat ∈ executed program steps)
    (count : Nat) : stateAfter program count ≠ none := by
  obtain ⟨first, early, before, reachedBefore, places⟩ := mem_executed_iff.mp again
  have counters : before.counter = state.counter := by
    obtain ⟨after, reachedAfter⟩ := exists_stateAfter_of_le reached early
    obtain ⟨_, same, stepped⟩ := stateAfter_succ_eq_some_iff.mp reachedAfter
    obtain rfl := Option.some.inj (reachedBefore.symm.trans same)
    have nonneg := (step?_eq_some_iff.mp stepped).1
    unfold Outside at inside
    omega
  have same : (stateAfter program first).map State.counter =
      (stateAfter program steps).map State.counter := by
    rw [reachedBefore, reached, Option.map_some, Option.map_some, counters]
  -- A step behind the second visit does what the same step behind the first visit does.
  induction count using Nat.strong_induction_on with
  | _ count ih =>
    rcases Nat.le_total count steps with early | late
    · obtain ⟨before, reached⟩ := exists_stateAfter_of_le reached early
      simp [reached]
    · have alike := map_counter_stateAfter same (count - steps)
      rw [Nat.add_sub_cancel' late] at alike
      have goes := ih (first + (count - steps)) (by omega)
      exact fun ends => goes (by simpa [ends] using alike)

end Machine

section Record

/-- The marks say which places are not among the given ones. -/
def Marks (fresh : Vector Bool program.size) (places : List Nat) : Prop :=
  ∀ place (inside : place < program.size), fresh[place] = true ↔ place ∉ places

/-- The run comes to `state` after `steps` steps: no instruction was executed twice, and what is left is
the run from there that takes exactly the instructions not executed for fresh. -/
structure Comes (program : Array Instruction) (steps : Nat) (state : State) : Prop where
  reached : stateAfter program steps = some state
  once : (executed program steps).Nodup
  rest : ∃ fresh : Vector Bool program.size, Marks fresh (executed program steps) ∧
    run program = runFrom program fresh state

theorem comes_initial (program : Array Instruction) : Comes program 0 State.initial :=
  ⟨rfl, List.nodup_nil, _, fun _ _ => by simp [executed], rfl⟩

theorem Marks.set {fresh : Vector Bool program.size} {places : List Nat} (marks : Marks fresh places)
    (inside : place < program.size) :
    Marks (fresh.set place false) (places ++ [place]) := by
  intro other there
  rw [Vector.getElem_set]
  split
  · rename_i same
    simp [same]
  · rename_i different
    simp [marks other there, Ne.symm different]

/-- A run goes on over an instruction that was not executed before. -/
theorem Comes.step (comes : Comes program steps state) (stepped : step? program state = some next)
    (fresh : state.counter.toNat ∉ executed program steps) : Comes program (steps + 1) next := by
  obtain ⟨reached, once, marked, marks, rest⟩ := comes
  obtain ⟨nonneg, instruction, found, applied⟩ := step?_eq_some_iff.mp stepped
  obtain ⟨inside, there⟩ := Array.getElem?_eq_some_iff.mp found
  refine ⟨stateAfter_succ_eq_some_iff.mpr ⟨state, reached, stepped⟩, ?_,
    marked.set state.counter.toNat false, ?_, ?_⟩
  · rw [executed_succ reached]
    simpa using List.Nodup.concat fresh once
  · rw [executed_succ reached]
    exact marks.set inside
  · rw [rest, runFrom, dif_pos ⟨nonneg, inside⟩, dif_pos ((marks _ inside).mpr fresh), there, applied]

/-- A run that has left the program halts. -/
theorem Comes.halted (comes : Comes program steps state) (outside : Outside program state) :
    run program = .halted state.accumulator := by
  obtain ⟨_, _, marked, _, rest⟩ := comes
  have left : ¬ (0 ≤ state.counter ∧ state.counter.toNat < program.size) := by
    unfold Outside at outside
    omega
  rw [rest, runFrom, dif_neg left]

/-- A run that comes to an instruction again stops there. -/
theorem Comes.looped (comes : Comes program steps state) (inside : ¬ Outside program state)
    (again : state.counter.toNat ∈ executed program steps) :
    run program = .looped state.accumulator := by
  obtain ⟨_, _, marked, marks, rest⟩ := comes
  have there : 0 ≤ state.counter ∧ state.counter.toNat < program.size := by
    unfold Outside at inside
    omega
  have stale : ¬ marked[state.counter.toNat] = true :=
    fun fresh => (marks _ there.2).mp fresh again
  rw [rest, runFrom, dif_pos there, dif_neg stale]

/-- No instruction twice: a run has at most as many steps as the program has instructions. -/
theorem Comes.le_size (comes : Comes program steps state) : steps ≤ program.size := by
  have within : executed program steps ⊆ List.range program.size := fun place member =>
    List.mem_range.mpr (lt_size_of_mem_executed comes.reached member)
  have bound := (List.subperm_of_subset comes.once within).length_le
  rwa [length_executed comes.reached, List.length_range] at bound

/-- A run stops at a state outside the program or at an instruction that it has executed. -/
def Stops (program : Array Instruction) (steps : Nat) (state : State) : Prop :=
  Outside program state ∨ ¬ Outside program state ∧ state.counter.toNat ∈ executed program steps

/-- Every run stops. -/
theorem Comes.exists_stops (comes : Comes program steps state) :
    ∃ last ≥ steps, ∃ final, Comes program last final ∧ Stops program last final := by
  induction room : program.size - steps using Nat.strong_induction_on generalizing steps state with
  | _ room ih =>
    by_cases stops : Stops program steps state
    · exact ⟨steps, Nat.le_refl _, state, comes, stops⟩
    · unfold Stops at stops
      push Not at stops
      obtain ⟨next, stepped⟩ := exists_step?_eq_some stops.1
      have goes := comes.step stepped (stops.2 stops.1)
      have bound := goes.le_size
      obtain ⟨last, later, ends⟩ := ih (program.size - (steps + 1)) (by omega) goes rfl
      exact ⟨last, by omega, ends⟩

/-- A run comes through every state that the machine without a record reaches by then. -/
theorem Comes.of_le (comes : Comes program steps final) (early : earlier ≤ steps)
    (reached : stateAfter program earlier = some state) : Comes program earlier state := by
  have ordered : (executed program earlier).Nodup := by
    refine comes.once.sublist ?_
    exact (List.range_sublist.mpr early).filterMap _
  clear comes early
  induction earlier generalizing state with
  | zero =>
    obtain rfl := Option.some.inj reached
    exact comes_initial program
  | succ earlier ih =>
    obtain ⟨before, reachedBefore, stepped⟩ := stateAfter_succ_eq_some_iff.mp reached
    rw [executed_succ reachedBefore, List.nodup_append_comm, List.singleton_append,
      List.nodup_cons] at ordered
    exact (ih reachedBefore ordered.2).step stepped ordered.1

end Record

section Width

/-- Each step adds an integer of 64 bits to the accumulator. -/
theorem accumulator_bounds (words : ∀ instruction ∈ program, instruction.InWord)
    (reached : stateAfter program steps = some state) :
    -(steps * 2 ^ 63) ≤ state.accumulator ∧ state.accumulator ≤ steps * 2 ^ 63 := by
  induction steps generalizing state with
  | zero =>
    obtain rfl := Option.some.inj reached
    simp [State.initial]
  | succ steps ih =>
    obtain ⟨before, reachedBefore, stepped⟩ := stateAfter_succ_eq_some_iff.mp reached
    obtain ⟨_, instruction, found, rfl⟩ := step?_eq_some_iff.mp stepped
    have bounds := ih reachedBefore
    have word := words instruction (Array.mem_of_getElem? found)
    have gain : -2 ^ 63 ≤ instruction.gain ∧ instruction.gain < 2 ^ 63 := by
      cases instruction with
      | acc argument => exact word
      | jmp argument | nop argument => simp [Instruction.gain]
    rw [Instruction.apply_eq]
    push_cast
    omega

/-- A step leads from a place of the program to a counter that a word holds, unless it is negative. -/
theorem counter_lt (words : ∀ instruction ∈ program, instruction.InWord)
    (short : program.size < 2 ^ 63) (reached : stateAfter program steps = some state) :
    state.counter < 2 ^ 64 := by
  cases steps with
  | zero =>
    obtain rfl := Option.some.inj reached
    simp [State.initial]
  | succ steps =>
    obtain ⟨before, _, stepped⟩ := stateAfter_succ_eq_some_iff.mp reached
    obtain ⟨_, instruction, found, rfl⟩ := step?_eq_some_iff.mp stepped
    have inside := (Array.getElem?_eq_some_iff.mp found).1
    have word := words instruction (Array.mem_of_getElem? found)
    have offset : instruction.offset < 2 ^ 63 := by
      cases instruction with
      | jmp argument => exact word.2
      | acc argument | nop argument => simp [Instruction.offset]
    rw [Instruction.apply_eq]
    simp only
    omega

theorem Comes.inWords (comes : Comes program steps state)
    (words : ∀ instruction ∈ program, instruction.InWord) (short : program.size < 2 ^ 63) :
    state.InWords := by
  have bounds := accumulator_bounds words comes.reached
  have few := comes.le_size
  exact ⟨by omega, by omega, counter_lt words short comes.reached⟩

end Width

/-- A jump back over additions of the largest argument: the sum needs more than 64 bits, and the jump
leads before the first instruction. -/
def farJump : Array Instruction :=
  #[.acc 9223372036854775807, .acc 9223372036854775807, .jmp (-9223372036854775808)]

end PuzzleCalendar.Console
