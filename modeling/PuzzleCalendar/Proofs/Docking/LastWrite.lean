import Mathlib.Algebra.BigOperators.Group.Finset.Basic
import PuzzleCalendar.Proofs.Docking.Decoding
import PuzzleCalendar.Proofs.Number.Sums

/-! # The last write wins

A write counts under the mask of the last mask line above it, and reaches one cell or many. Running a
program leaves in each cell what the last write that reaches it stores, so each part adds up the last
writes. The sum is the same in whatever order the cells come, and it is no word only when the sum over
all cells is none.
-/

namespace PuzzleCalendar.Docking

/-- The mask that a command sets. -/
def Command.mask? : Command → Option Mask
  | .setMask mask => some mask
  | .write _ _ => none

/-- The mask of the last line that sets one. -/
def lastMask? (program : List Command) : Option Mask :=
  program.reverse.findSome? Command.mask?

/-- A line of a program writes a value to an address, and a mask is the last one set above it. -/
structure Writes (program : List Command) (line : Nat) (mask : Mask) (address value : Word) : Prop where
  command : program[line]? = some (.write address value)
  mask : lastMask? (program.take line) = some mask

/-- Every line that writes has a line above it that sets a mask. -/
def Masked (program : List Command) : Prop :=
  ∀ line address value, program[line]? = some (.write address value) →
    ∃ mask, lastMask? (program.take line) = some mask

/-- Which cells a write reaches, and what it stores there. -/
structure Effect where
  Reaches : Mask → Word → Word → Prop
  stored : Mask → Word → Word

/-- The write is the last one of a program that reaches a cell. -/
def LastWrite (effect : Effect) (program : List Command) (cell : Word) (mask : Mask)
    (address value : Word) : Prop :=
  ∃ line, Writes program line mask address value ∧ effect.Reaches mask address cell ∧
    ∀ later mask address value, line < later → Writes program later mask address value →
      ¬ effect.Reaches mask address cell

/-- A write changes the cells that it reaches and no other ones. -/
def Store.Has (store : Store) (effect : Effect) : Prop :=
  ∀ (memory : Memory) (mask : Mask) (address value cell : Word),
    (effect.Reaches mask address cell →
      (store memory mask address value)[cell]? = some (effect.stored mask value)) ∧
    (¬ effect.Reaches mask address cell → (store memory mask address value)[cell]? = memory[cell]?)

/-- A write reaches its address and stores the value as the mask overwrites it. -/
def valueEffect : Effect where
  Reaches _ address cell := cell = address
  stored mask value := mask.overwrite value

/-- A write reaches all that its address stands for and stores its value. -/
def addressEffect : Effect where
  Reaches mask address cell := mask.Decodes address cell
  stored _ value := value

theorem storeValue_has : storeValue.Has valueEffect := by
  intro memory mask address value cell
  simp only [storeValue, valueEffect, Std.HashMap.getElem?_insert, beq_iff_eq]
  exact ⟨fun same => if_pos same.symm, fun other => if_neg (Ne.symm other)⟩

/-- Filling cells with one value. -/
theorem getElem?_foldl_insert (cells : List Word) (memory : Memory) (value cell : Word) :
    (cells.foldl (fun memory cell => memory.insert cell value) memory)[cell]? =
      if cell ∈ cells then some value else memory[cell]? := by
  induction cells generalizing memory with
  | nil => simp
  | cons first cells ih =>
    rw [List.foldl_cons, ih, Std.HashMap.getElem?_insert]
    by_cases later : cell ∈ cells
    · simp only [later, List.mem_cons, or_true, if_true]
    · simp only [later, List.mem_cons, or_false, if_false, beq_iff_eq, eq_comm (a := first)]

theorem storeEach_has : storeEach.Has addressEffect := by
  intro memory mask address value cell
  rw [storeEach, getElem?_foldl_insert]
  exact ⟨fun reached => if_pos (Mask.mem_addresses.mpr reached),
    fun missed => if_neg fun member => missed (Mask.mem_addresses.mp member)⟩

section Lines

variable {effect : Effect} {program : List Command} {command : Command} {line : Nat} {mask other : Mask}
  {address value cell : Word}

theorem lastMask?_concat : lastMask? (program ++ [command]) = command.mask?.or (lastMask? program) := by
  rw [lastMask?, List.reverse_concat, List.findSome?_cons]
  cases command with
  | setMask mask => rfl
  | write address value => rfl

theorem Writes.lt_length (writes : Writes program line mask address value) : line < program.length :=
  (List.getElem?_eq_some_iff.mp writes.command).1

/-- What one more line adds to the writes. -/
theorem writes_concat_iff : Writes (program ++ [command]) line mask address value ↔
    Writes program line mask address value ∨
      line = program.length ∧ command = .write address value ∧ lastMask? program = some mask := by
  rcases Nat.lt_trichotomy line program.length with inside | same | beyond
  · constructor
    · rintro ⟨found, above⟩
      rw [List.getElem?_append_left inside] at found
      rw [List.take_append_of_le_length inside.le] at above
      exact .inl ⟨found, above⟩
    · rintro (⟨found, above⟩ | ⟨same, -⟩)
      · refine ⟨?_, ?_⟩
        · rw [List.getElem?_append_left inside, found]
        · rw [List.take_append_of_le_length inside.le, above]
      · omega
  · subst same
    constructor
    · rintro ⟨found, above⟩
      rw [List.getElem?_concat_length, Option.some_inj] at found
      rw [List.take_left] at above
      exact .inr ⟨rfl, found, above⟩
    · rintro (writes | ⟨-, rfl, above⟩)
      · exact absurd writes.lt_length (Nat.lt_irrefl _)
      · exact ⟨List.getElem?_concat_length, by rw [List.take_left, above]⟩
  · constructor
    · intro writes
      have inside := writes.lt_length
      rw [List.length_append, List.length_singleton] at inside
      omega
    · rintro (writes | ⟨same, -⟩)
      · have inside := writes.lt_length
        omega
      · omega

theorem Masked.of_concat (masked : Masked (program ++ [command])) : Masked program := by
  intro line address value found
  have inside : line < program.length := (List.getElem?_eq_some_iff.mp found).1
  obtain ⟨mask, above⟩ := masked line address value (by rw [List.getElem?_append_left inside, found])
  rw [List.take_append_of_le_length inside.le] at above
  exact ⟨mask, above⟩

theorem lastWrite_concat_setMask : LastWrite effect (program ++ [.setMask other]) cell mask address value ↔
    LastWrite effect program cell mask address value := by
  simp only [LastWrite, writes_concat_iff, reduceCtorEq, false_and, and_false, or_false]

/-- One more write is the last one for the cells that it reaches. -/
theorem lastWrite_concat_of_reaches (masked : lastMask? program = some mask)
    (reached : effect.Reaches mask address cell) {mask' : Mask} {address' value' : Word} :
    LastWrite effect (program ++ [.write address value]) cell mask' address' value' ↔
      mask' = mask ∧ address' = address ∧ value' = value := by
  have last : Writes (program ++ [.write address value]) program.length mask address value :=
    writes_concat_iff.mpr (.inr ⟨rfl, rfl, masked⟩)
  constructor
  · rintro ⟨line, writes, -, none⟩
    rcases writes_concat_iff.mp writes with before | ⟨-, same, above⟩
    · exact absurd reached (none _ _ _ _ before.lt_length last)
    · cases same
      exact ⟨Option.some_inj.mp (above.symm.trans masked), rfl, rfl⟩
  · rintro ⟨rfl, rfl, rfl⟩
    refine ⟨program.length, last, reached, ?_⟩
    intro later mask address value beyond writes
    have inside := writes.lt_length
    rw [List.length_append, List.length_singleton] at inside
    omega

/-- One more write leaves the last write of the cells that it misses. -/
theorem lastWrite_concat_of_misses (masked : lastMask? program = some mask)
    (missed : ¬ effect.Reaches mask address cell) {mask' : Mask} {address' value' : Word} :
    LastWrite effect (program ++ [.write address value]) cell mask' address' value' ↔
      LastWrite effect program cell mask' address' value' := by
  constructor
  · rintro ⟨line, writes, reached, none⟩
    rcases writes_concat_iff.mp writes with before | ⟨-, same, above⟩
    · refine ⟨line, before, reached, ?_⟩
      intro later mask address value beyond writes
      exact none later mask address value beyond (writes_concat_iff.mpr (.inl writes))
    · cases same
      rw [masked, Option.some_inj] at above
      exact absurd (above ▸ reached) missed
  · rintro ⟨line, writes, reached, none⟩
    refine ⟨line, writes_concat_iff.mpr (.inl writes), reached, ?_⟩
    intro later mask address value beyond writes
    rcases writes_concat_iff.mp writes with before | ⟨-, same, above⟩
    · exact none later mask address value beyond before
    · cases same
      rw [masked, Option.some_inj] at above
      exact above ▸ missed

end Lines

section Run

variable {effect : Effect} {store : Store} (initial : Mask)

theorem run_concat (store : Store) (state : State) (program : List Command) (command : Command) :
    state.run store (program ++ [command]) = (state.run store program).step store command := by
  rw [State.run, List.foldl_concat]
  rfl

/-- The mask in force is the last one set. -/
theorem mask_run (store : Store) (program : List Command) :
    ((State.start initial).run store program).mask = (lastMask? program).getD initial := by
  induction program using List.reverseRecOn with
  | nil => rfl
  | append_singleton program command ih =>
    rw [run_concat, lastMask?_concat]
    cases command with
    | setMask mask => rfl
    | write address value => exact ih

/-- Running a program leaves in each cell what the last write that reaches it stores. -/
theorem getElem?_memory_run (has : store.Has effect) {program : List Command} (masked : Masked program)
    {cell left : Word} : ((State.start initial).run store program).memory[cell]? = some left ↔
      ∃ mask address value, LastWrite effect program cell mask address value ∧
        left = effect.stored mask value := by
  induction program using List.reverseRecOn with
  | nil =>
    have empty : ((State.start initial).run store []).memory[cell]? = none := Std.HashMap.getElem?_empty
    rw [empty]
    constructor
    · intro found
      contradiction
    · rintro ⟨_, _, _, ⟨_, writes, -⟩, -⟩
      exact absurd writes.lt_length (Nat.not_lt_zero _)
  | append_singleton program command ih =>
    have before := ih masked.of_concat
    rw [run_concat]
    cases command with
    | setMask other =>
      simp only [lastWrite_concat_setMask]
      exact before
    | write address value =>
      obtain ⟨mask, above⟩ := masked program.length address value List.getElem?_concat_length
      rw [List.take_left] at above
      have force : ((State.start initial).run store program).mask = mask := by
        rw [mask_run, above, Option.getD_some]
      have change := has ((State.start initial).run store program).memory mask address value cell
      simp only [State.step, force]
      by_cases reached : effect.Reaches mask address cell
      · rw [change.1 reached, Option.some_inj]
        simp only [lastWrite_concat_of_reaches above reached]
        constructor
        · rintro rfl
          exact ⟨mask, address, value, ⟨rfl, rfl, rfl⟩, rfl⟩
        · rintro ⟨_, _, _, ⟨rfl, rfl, rfl⟩, rfl⟩
          rfl
      · rw [change.2 reached, before]
        simp only [lastWrite_concat_of_misses above reached]

/-- No mask in force at the start plays a part when every write has a mask above it. -/
theorem memory_run_start (store : Store) {program : List Command} (masked : Masked program) (other : Mask) :
    ((State.start initial).run store program).memory = ((State.start other).run store program).memory := by
  induction program using List.reverseRecOn with
  | nil => rfl
  | append_singleton program command ih =>
    have before := ih masked.of_concat
    rw [run_concat, run_concat]
    cases command with
    | setMask mask => exact before
    | write address value =>
      obtain ⟨mask, above⟩ := masked program.length address value List.getElem?_concat_length
      rw [List.take_left] at above
      simp only [State.step, mask_run, above, Option.getD_some, before]

end Run

/-- A part answers with the sum of what the last writes leave in the cells that some write reaches. -/
structure SumsLastWrites (store : Store) (effect : Effect) (program : List Command) (cells : Finset Word)
    (left : Word → Word) : Prop where
  /-- The cells are those that a write reaches, and each holds what the last one stores there. -/
  last_write (cell held : Word) : cell ∈ cells ∧ left cell = held ↔
    ∃ mask address value, LastWrite effect program cell mask address value ∧ held = effect.stored mask value
  /-- Memory does not depend on the mask in force before the first line. -/
  any_start (initial other : Mask) :
    ((State.start initial).run store program).memory = ((State.start other).run store program).memory
  /-- The cells add up to the same in any order, where a sum on the way may be no word. -/
  any_order (order : List Word) : order.Perm cells.toList →
    Number.sum64? (order.map fun cell => (left cell).toNat) =
      Number.word64? (∑ cell ∈ cells, (left cell).toNat)
  /-- The answer is the sum when a word holds it, and a fault otherwise. -/
  answer_eq : answer store program =
    if ∑ cell ∈ cells, (left cell).toNat < 2 ^ 64 then .ok (toString (∑ cell ∈ cells, (left cell).toNat))
    else Outcome.fault

/-- The sum of memory is that over its cells. -/
theorem Memory.sum?_eq (memory : Memory) :
    memory.sum? = Number.word64? (∑ cell ∈ memory.keys.toFinset, (memory.getD cell 0).toNat) := by
  have values : memory.toList.map (fun cell => cell.2.toNat) =
      memory.keys.map fun cell => (memory.getD cell 0).toNat := by
    rw [← Std.HashMap.map_fst_toList_eq_keys, List.map_map]
    apply List.map_congr_left
    rintro ⟨cell, held⟩ member
    have found := Std.HashMap.mem_toList_iff_getElem?_eq_some.mp member
    simp [Std.HashMap.getD_eq_getD_getElem?, found]
  rw [Memory.sum?, Number.sum64?_eq_word64?_sum, values, List.sum_toFinset _ Std.HashMap.nodup_keys]

theorem sumsLastWrites_of_masked {store : Store} {effect : Effect} (has : store.Has effect)
    {program : List Command} (masked : Masked program) :
    ∃ cells left, SumsLastWrites store effect program cells left := by
  let memory := ((State.start Mask.empty).run store program).memory
  refine ⟨memory.keys.toFinset, (memory.getD · 0), ?_, ?_, ?_, ?_⟩
  · intro cell held
    rw [← getElem?_memory_run Mask.empty has masked, List.mem_toFinset, Std.HashMap.mem_keys]
    change _ ↔ memory[cell]? = some held
    rw [Std.HashMap.getD_eq_getD_getElem?, Std.HashMap.mem_iff_isSome_getElem?]
    cases memory[cell]? <;> simp
  · exact fun initial other => memory_run_start initial store masked other
  · intro order perm
    rw [Number.sum64?_eq_word64?_sum, (perm.map _).sum_eq, Finset.sum_map_toList]
  · have summed := memory.sum?_eq
    rw [Number.word64?] at summed
    change Outcome.orFault memory.sum? >>= _ = _
    rw [summed, bind_orFault_ite]
    rfl

/-- A program that can be read sets a mask before it writes. -/
theorem masked_of_parse {text : Text} {program : List Command} (parsed : parse text = .ok program) :
    Masked program := by
  obtain ⟨lines, -, checked⟩ := bind_eq_ok_iff.mp (Outcome.ofExcept_eq_ok_iff.mp parsed)
  split at checked
  · contradiction
  · rename_i starts
    cases checked
    intro line address value found
    cases program with
    | nil => simp at found
    | cons first rest =>
      cases first with
      | write address value => exact absurd rfl (starts address value rest)
      | setMask mask =>
        cases line with
        | zero => simp at found
        | succ line =>
          rw [← Option.isSome_iff_exists, lastMask?, List.isSome_findSome?, List.any_eq_true]
          exact ⟨.setMask mask, by simp, rfl⟩

/-- Writes that overlap under two masks. -/
def harbour : Text :=
  ("mask = 000000000000000000000000000000X1001X\nmem[42] = 100\nmem[59] = 7\n" ++
    "mask = 00000000000000000000000000000000X0XX\nmem[26] = 1\nmem[17] = 18446744073709551615\n").toList

/-- The commands of the overlapping writes. -/
def harbourProgram : List Command :=
  [.setMask ⟨0x12, 0xFFFFFFFCC, 0x21⟩, .write 42 100, .write 59 7,
    .setMask ⟨0, 0xFFFFFFFF4, 0xB⟩, .write 26 1, .write 17 18446744073709551615]

end PuzzleCalendar.Docking
