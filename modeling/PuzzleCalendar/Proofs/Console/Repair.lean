import Mathlib.Data.Nat.Find
import PuzzleCalendar.Proofs.Console.Halting

/-! # Repair of a program

The search for a repair swaps one instruction after the other and takes each swap back, so every trial runs
the program with one swap and nothing else, and the program is left as it was. A trial halts exactly when
the machine that keeps no record leaves the swapped program, with the same accumulator. So the first trial
that halts is the swap at the smallest place that repairs the program.
-/

namespace PuzzleCalendar.Console

/-- The programs differ in one instruction, which is a jump in one of them and does nothing in the other. -/
structure SwapsAt (program : Array Instruction) (place : Nat) (patched : Array Instruction) : Prop where
  size : patched.size = program.size
  others (other : Nat) : other ≠ place → patched[other]? = program[other]?
  swapped : ∃ argument,
    program[place]? = some (.jmp argument) ∧ patched[place]? = some (.nop argument) ∨
      program[place]? = some (.nop argument) ∧ patched[place]? = some (.jmp argument)

/-- The machine that keeps no record leaves the program with an accumulator. -/
def LeavesWith (program : Array Instruction) (accumulator : Int) : Prop :=
  ∃ steps final, stateAfter program steps = some final ∧ Outside program final ∧
    final.accumulator = accumulator

/-- With the swap at a place, the machine leaves the program with an accumulator. -/
def Repairs (program : Array Instruction) (place : Nat) (accumulator : Int) : Prop :=
  ∃ patched, SwapsAt program place patched ∧ LeavesWith patched accumulator

/-- The swap at the first place from `start` on that repairs the program leaves it with an accumulator. -/
def FirstRepair (program : Array Instruction) (start : Nat) (accumulator : Int) : Prop :=
  ∃ place, start ≤ place ∧ Repairs program place accumulator ∧
    ∀ earlier, start ≤ earlier → earlier < place → ∀ other, ¬ Repairs program earlier other

variable {program patched : Array Instruction} {place index : Nat} {accumulator : Int}

section Leaving

theorem stateAfter_succ_eq_none {steps : Nat} {final : State}
    (reached : stateAfter program steps = some final) (outside : Outside program final) :
    stateAfter program (steps + 1) = none := by
  rw [stateAfter, reached, Option.bind_some, step?_eq_none_iff.mpr outside]

/-- The machine leaves a program with one accumulator only. -/
theorem LeavesWith.unique {other : Int} (leaves : LeavesWith program accumulator)
    (again : LeavesWith program other) : accumulator = other := by
  obtain ⟨steps, final, reached, outside, rfl⟩ := leaves
  obtain ⟨count, last, reachedLast, outsideLast, rfl⟩ := again
  rcases Nat.lt_trichotomy steps count with less | rfl | more
  · obtain ⟨_, later⟩ := exists_stateAfter_of_le reachedLast less
    rw [stateAfter_succ_eq_none reached outside] at later
    contradiction
  · rw [reached, Option.some_inj] at reachedLast
    rw [reachedLast]
  · obtain ⟨_, later⟩ := exists_stateAfter_of_le reached more
    rw [stateAfter_succ_eq_none reachedLast outsideLast] at later
    contradiction

/-- A run halts when the machine that keeps no record leaves the program, and with its accumulator. -/
theorem run_eq_halted_iff : run program = .halted accumulator ↔ LeavesWith program accumulator := by
  obtain ⟨steps, -, final, comes, outside | ⟨inside, again⟩⟩ := (comes_initial program).exists_stops
  · have leaves : LeavesWith program final.accumulator := ⟨steps, final, comes.reached, outside, rfl⟩
    rw [comes.halted outside, Ending.halted.injEq]
    exact ⟨fun same => same ▸ leaves, leaves.unique⟩
  · rw [comes.looped inside again]
    refine iff_of_false (by simp) ?_
    rintro ⟨count, last, reached, outside, -⟩
    exact stateAfter_ne_none_of_mem comes.reached inside again (count + 1)
      (stateAfter_succ_eq_none reached outside)

end Leaving

section Swapping

/-- Each of two instructions is the swap of the other one. -/
theorem swapped?_eq_some_iff {instruction swapped : Instruction} :
    instruction.swapped? = some swapped ↔ ∃ argument,
      instruction = .jmp argument ∧ swapped = .nop argument ∨
        instruction = .nop argument ∧ swapped = .jmp argument := by
  cases instruction <;> simp [Instruction.swapped?, eq_comm]

/-- A swap writes the counterpart of an instruction into its place. -/
theorem swapsAt_iff (inside : index < program.size) : SwapsAt program index patched ↔
    ∃ swapped, program[index].swapped? = some swapped ∧ program.set index swapped = patched := by
  constructor
  · rintro ⟨size, others, argument, kinds⟩
    have there : index < patched.size := size.symm ▸ inside
    rw [Array.getElem?_eq_getElem inside, Array.getElem?_eq_getElem there] at kinds
    simp only [Option.some_inj] at kinds
    refine ⟨patched[index], swapped?_eq_some_iff.mpr ⟨argument, kinds⟩, Array.ext_getElem? fun other => ?_⟩
    rcases eq_or_ne index other with rfl | elsewhere
    · rw [Array.getElem?_set_self inside, Array.getElem?_eq_getElem there]
    · rw [Array.getElem?_set_ne inside elsewhere, others other elsewhere.symm]
  · rintro ⟨swapped, found, rfl⟩
    obtain ⟨argument, kinds⟩ := swapped?_eq_some_iff.mp found
    refine ⟨Array.size_set inside, fun other different => ?_, argument, ?_⟩
    · exact Array.getElem?_set_ne inside (Ne.symm different)
    · rw [Array.getElem?_eq_getElem inside, Array.getElem?_set_self inside]
      simpa using kinds

theorem SwapsAt.lt_size (swaps : SwapsAt program place patched) : place < program.size := by
  obtain ⟨_, ⟨found, -⟩ | ⟨found, -⟩⟩ := swaps.swapped
  · exact (Array.getElem?_eq_some_iff.mp found).1
  · exact (Array.getElem?_eq_some_iff.mp found).1

theorem repairs_iff (inside : index < program.size) : Repairs program index accumulator ↔
    ∃ swapped, program[index].swapped? = some swapped ∧
      run (program.set index swapped) = .halted accumulator := by
  simp only [Repairs, swapsAt_iff inside, run_eq_halted_iff]
  constructor
  · rintro ⟨_, ⟨swapped, found, rfl⟩, leaves⟩
    exact ⟨swapped, found, leaves⟩
  · rintro ⟨swapped, found, leaves⟩
    exact ⟨_, ⟨swapped, found, rfl⟩, leaves⟩

theorem Repairs.unique {other : Int} (repairs : Repairs program place accumulator)
    (again : Repairs program place other) : accumulator = other := by
  obtain ⟨_, swaps, _⟩ := id repairs
  obtain ⟨_, found, halts⟩ := (repairs_iff swaps.lt_size).mp repairs
  obtain ⟨_, same, halted⟩ := (repairs_iff swaps.lt_size).mp again
  obtain rfl := Option.some_inj.mp (found.symm.trans same)
  rw [halts, Ending.halted.injEq] at halted
  exact halted

end Swapping

section Search

/-- A place that repairs the program is the first one from there on. -/
theorem firstRepair_iff_of_repairs {other : Int} (repairs : Repairs program index other) :
    FirstRepair program index accumulator ↔ other = accumulator := by
  constructor
  · rintro ⟨place, later, found, first⟩
    rcases Nat.eq_or_lt_of_le later with rfl | less
    · exact repairs.unique found
    · exact absurd repairs (first index (Nat.le_refl index) less other)
  · rintro rfl
    exact ⟨index, Nat.le_refl index, repairs, fun earlier late early => by omega⟩

/-- A place that does not repair the program is passed over. -/
theorem firstRepair_succ_iff (never : ∀ other, ¬ Repairs program index other) :
    FirstRepair program (index + 1) accumulator ↔ FirstRepair program index accumulator := by
  constructor
  · rintro ⟨place, later, repairs, first⟩
    refine ⟨place, by omega, repairs, fun earlier late early => ?_⟩
    rcases Nat.eq_or_lt_of_le late with rfl | less
    · exact never
    · exact first earlier less early
  · rintro ⟨place, later, repairs, first⟩
    rcases Nat.eq_or_lt_of_le later with rfl | less
    · exact absurd repairs (never accumulator)
    · exact ⟨place, less, repairs, fun earlier late early => first earlier (by omega) early⟩

/-- A patch that is taken back leaves the program as it was. -/
theorem set_set_getElem (program : Array Instruction) {index : Nat} (inside : index < program.size)
    (patch : Instruction) :
    (program.set index patch).set index program[index] (by simpa using inside) = program := by
  simp

/-- Looking for the repair restores the program, whether one is found or not. -/
theorem repairFrom_snd (program : Array Instruction) (index : Nat) :
    (repairFrom program index).2 = program := by
  fun_induction repairFrom program index with
  | case1 program index inside _ ih => exact ih
  | case2 program index inside swapped => exact set_set_getElem program inside swapped
  | case3 program index inside swapped _ _ _ _ _ _ _ ih =>
    exact ih.trans (set_set_getElem program inside swapped)
  | case4 => rfl

/-- Looking for the repair from a place on finds the first one there. -/
theorem repairFrom_fst_eq_some_iff :
    (repairFrom program index).1 = some accumulator ↔ FirstRepair program index accumulator := by
  fun_induction repairFrom program index with
  | case1 program index inside none ih =>
    rw [ih]
    apply firstRepair_succ_iff
    intro other repairs
    obtain ⟨swapped, found, -⟩ := (repairs_iff inside).mp repairs
    rw [none] at found
    contradiction
  | case2 program index inside swapped found _ _ _ _ halted ends =>
    have repairs : Repairs program index halted := (repairs_iff inside).mpr ⟨swapped, found, ends⟩
    rw [firstRepair_iff_of_repairs repairs, Option.some_inj]
  | case3 program index inside swapped found _ _ _ restored looped ends ih =>
    have same : restored = program := set_set_getElem program inside swapped
    rw [ih, same]
    apply firstRepair_succ_iff
    intro other repairs
    obtain ⟨_, again, halts⟩ := (repairs_iff inside).mp repairs
    obtain rfl := Option.some_inj.mp (found.symm.trans again)
    exact Ending.noConfusion (halts.symm.trans ends)
  | case4 program index outside =>
    refine iff_of_false (by simp) ?_
    rintro ⟨place, later, ⟨_, swaps, -⟩, -⟩
    have inside := swaps.lt_size
    omega

/-- If any place repairs the program, some place is the first one. -/
theorem exists_firstRepair (repairs : Repairs program place accumulator) :
    ∃ least, FirstRepair program 0 least := by
  classical
  have repairable : ∃ place, ∃ accumulator, Repairs program place accumulator := ⟨place, accumulator, repairs⟩
  obtain ⟨least, found⟩ := Nat.find_spec repairable
  exact ⟨least, _, Nat.zero_le _, found, fun earlier _ early other repairs =>
    Nat.find_min repairable early ⟨other, repairs⟩⟩

/-- There is a value exactly when the search finds a repair. -/
theorem repairValue_fst (program : Array Instruction) : (repairValue program).1 =
    ((repair program).1.map toString).elim
      (Outcome.report (.noSolution "no single jmp/nop swap makes the program halt")) .ok := by
  rw [repairValue]
  obtain ⟨_ | accumulator, restored⟩ := repair program
  · rfl
  · rfl

theorem repairValue_snd (program : Array Instruction) : (repairValue program).2 = program := by
  have kept : (repairValue program).2 = (repair program).2 := by
    rw [repairValue]
    obtain ⟨_ | accumulator, restored⟩ := repair program
    · rfl
    · rfl
  exact kept.trans (repairFrom_snd program 0)

end Search

section Width

theorem SwapsAt.inWord (swaps : SwapsAt program place patched)
    (words : ∀ instruction ∈ program, instruction.InWord) :
    ∀ instruction ∈ patched, instruction.InWord := by
  intro instruction member
  obtain ⟨other, inside, rfl⟩ := Array.getElem_of_mem member
  have there : patched[other]? = some patched[other] := Array.getElem?_eq_getElem inside
  rcases eq_or_ne other place with rfl | elsewhere
  · obtain ⟨argument, ⟨before, after⟩ | ⟨before, after⟩⟩ := swaps.swapped
    · have word := words _ (Array.mem_of_getElem? before)
      rw [Option.some_inj.mp (there.symm.trans after)]
      exact word
    · have word := words _ (Array.mem_of_getElem? before)
      rw [Option.some_inj.mp (there.symm.trans after)]
      exact word
  · rw [swaps.others other elsewhere] at there
    exact words _ (Array.mem_of_getElem? there)

end Width

end PuzzleCalendar.Console
