import Mathlib.Algebra.Order.Ring.Nat
import Mathlib.Data.List.Chain
import Mathlib.Data.List.GetD
import PuzzleCalendar.Puzzles.Adapters

/-! # Chains that are accepted

A chain that can be read starts at the outlet, climbs by one to three jolts a step, and ends at a device
that a word holds. So every place of it lies as far above an earlier one as there are steps between them,
and every step has a place in the table of steps.
-/

namespace PuzzleCalendar.Adapters

/-- A step joins two adapters. -/
def Joined (low high : Nat) : Prop := low < high ∧ high ≤ low + 3

/-- A chain from the outlet to a device three above the last adapter, with a step from each place to the
next one. -/
structure Climbs (chain : List Nat) : Prop where
  outlet : chain.head? = some 0
  joined : chain.IsChain Joined
  device : ∃ lower greatest, chain = lower ++ [greatest, greatest + 3] ∧ greatest + 3 < 2 ^ 64

theorem forall_neighbours_iff {Near : Nat → Nat → Prop} {chain : List Nat} :
    (∀ pair ∈ neighbours chain, Near pair.1 pair.2) ↔ chain.IsChain Near := by
  induction chain with
  | nil => simp [neighbours]
  | cons first rest ih =>
    cases rest with
    | nil => simp [neighbours]
    | cons second rest =>
      rw [List.isChain_cons_cons, ← ih]
      simp [neighbours]

theorem joined_of_findUnjoined? {pairs : List (Nat × Nat)} (found : findUnjoined? pairs = some none) :
    ∀ pair ∈ pairs, Joined pair.1 pair.2 := by
  induction pairs with
  | nil => simp
  | cons pair pairs ih =>
    obtain ⟨low, high⟩ := pair
    rw [findUnjoined?, Option.bind_eq_bind, Option.bind_eq_some_iff] at found
    obtain ⟨step, difference, later⟩ := found
    rw [Number.difference?, Option.ite_none_right_eq_some, Option.some_inj] at difference
    obtain ⟨up, rfl⟩ := difference
    split at later
    · cases later
    · rename_i near
      simp only [Bool.or_eq_true, decide_eq_true_eq, not_or, Nat.not_lt] at near
      rw [List.forall_mem_cons]
      refine ⟨⟨?_, ?_⟩, ih later⟩
      · change low < high
        omega
      · change high ≤ low + 3
        omega

/-- The least of some adapters and the outlet is the outlet. -/
theorem head?_rising (adapters : List Nat) : ((0 :: adapters).mergeSort (· ≤ ·)).head? = some 0 := by
  have sorted := pairwise_mergeSort (0 :: adapters)
  have outlet : 0 ∈ (0 :: adapters).mergeSort (· ≤ ·) := List.mem_mergeSort.mpr List.mem_cons_self
  cases rising : (0 :: adapters).mergeSort (· ≤ ·) with
  | nil => simp [rising] at outlet
  | cons first rest =>
    rw [rising] at sorted outlet
    rcases List.mem_cons.mp outlet with same | later
    · exact congrArg some same.symm
    · exact congrArg some (Nat.le_zero.mp ((List.pairwise_cons.mp sorted).1 0 later))

theorem climbs_of_parse {text : Text} {chain : List Nat} (parsed : parse text = .ok chain) :
    Climbs chain := by
  obtain ⟨adapters, -, made⟩ := bind_eq_ok_iff.mp parsed
  obtain ⟨device, held, made⟩ := bind_eq_ok_iff.mp made
  obtain ⟨unjoined, found, made⟩ := bind_eq_ok_iff.mp made
  rw [Outcome.orFault_eq_ok_iff, Number.word64?_eq_some_iff] at held
  rw [Outcome.orFault_eq_ok_iff] at found
  have outlet := head?_rising adapters
  generalize (0 :: adapters).mergeSort (· ≤ ·) = rising at held found made outlet
  cases unjoined with
  | some pair => contradiction
  | none =>
    obtain rfl := Except.ok.inj made
    obtain rfl | ⟨lower, greatest, rfl⟩ := rising.eq_nil_or_concat'
    · contradiction
    · rw [List.getLast?_concat, Option.getD_some] at held
      obtain ⟨rfl, word⟩ := held
      refine ⟨?_, forall_neighbours_iff.mp (joined_of_findUnjoined? found), lower, greatest, ?_, word⟩
      · rw [List.head?_append, outlet, Option.some_or]
      · rw [List.append_assoc, List.singleton_append]

namespace Climbs

variable {chain : List Nat}

theorem rising (climbs : Climbs chain) : chain.Pairwise (· < ·) :=
  List.isChain_iff_pairwise.mp (climbs.joined.imp fun _ _ step => step.1)

theorem nodup (climbs : Climbs chain) : chain.Nodup := climbs.rising.imp Nat.ne_of_lt

theorem two_le_length (climbs : Climbs chain) : 2 ≤ chain.length := by
  obtain ⟨lower, greatest, rfl, -⟩ := climbs.device
  simp

/-- A place lies as far above an earlier one as there are steps between them. -/
theorem add_le_getD (climbs : Climbs chain) (place steps : Nat)
    (inside : place + steps < chain.length) :
    chain.getD place 0 + steps ≤ chain.getD (place + steps) 0 := by
  induction steps with
  | zero => exact Nat.le_refl _
  | succ steps ih =>
    have below := ih (by omega)
    have earlier : place + steps < chain.length := by omega
    have step := (List.isChain_iff_getElem.mp climbs.joined (place + steps) inside).1
    rw [List.getD_eq_getElem _ _ earlier] at below
    rw [List.getD_eq_getElem _ _ inside]
    exact Nat.lt_of_le_of_lt below step

/-- Words have room for all places. -/
theorem length_lt (climbs : Climbs chain) : chain.length < 2 ^ 64 := by
  have steps := climbs.add_le_getD 0 (chain.length - 2)
  obtain ⟨lower, greatest, rfl, word⟩ := climbs.device
  simp at steps
  simp
  omega

end Climbs

/-- A table has the number of the steps between some neighbours for each height. -/
def StepTable.Tallies (table : StepTable) (pairs : List (Nat × Nat)) : Prop :=
  ∀ height : Fin 4, table[height] = pairs.countP fun pair => pair.2 - pair.1 = height.val

/-- A step between joined neighbours is counted in its place of the table. -/
theorem StepTable.count?_of_joined (table : StepTable) {pair : Nat × Nat} (joined : Joined pair.1 pair.2)
    (room : ∀ height : Fin 4, table[height] + 1 < 2 ^ 64) :
    ∃ next, table.count? pair = some next ∧
      ∀ height : Fin 4, next[height] = table[height] + if pair.2 - pair.1 = height.val then 1 else 0 := by
  obtain ⟨low, high⟩ := pair
  obtain ⟨up, near⟩ : low < high ∧ high ≤ low + 3 := joined
  have inside : high - low < 4 := by omega
  have difference : Number.difference? high low = some (high - low) := if_pos up.le
  have word : Number.word64? (table[high - low] + 1) = some (table[high - low] + 1) :=
    Number.word64?_eq_some_iff.mpr ⟨rfl, room ⟨high - low, inside⟩⟩
  refine ⟨table.setIfInBounds (high - low) (table[high - low] + 1), ?_, fun height => ?_⟩
  · simp only [count?, difference, Option.bind_eq_bind, Option.bind_some, Vector.getElem?_eq_getElem inside, word]
    rfl
  · change (table.setIfInBounds (high - low) (table[high - low] + 1))[height.val] = table[height.val] + _
    rw [Vector.getElem_setIfInBounds]
    by_cases same : high - low = height.val
    · simp only [same, if_true]
    · simp only [same, if_false, Nat.add_zero]

/-- Counting joined neighbours fills the table with the numbers of their steps. -/
theorem foldlM_count? (table : StepTable) {pairs : List (Nat × Nat)}
    (joined : ∀ pair ∈ pairs, Joined pair.1 pair.2)
    (room : ∀ height : Fin 4, table[height] + pairs.length < 2 ^ 64) :
    ∃ counts : StepTable, pairs.foldlM StepTable.count? table = some counts ∧
      ∀ height : Fin 4, counts[height] =
        table[height] + pairs.countP fun pair => pair.2 - pair.1 = height.val := by
  induction pairs generalizing table with
  | nil => exact ⟨table, rfl, fun height => rfl⟩
  | cons pair pairs ih =>
    obtain ⟨first, joined⟩ := List.forall_mem_cons.mp joined
    simp only [List.length_cons] at room
    obtain ⟨next, counted, heights⟩ := table.count?_of_joined first fun height => by
      have := room height
      omega
    have later (height : Fin 4) : next[height] + pairs.length < 2 ^ 64 := by
      have := room height
      rw [heights]
      split <;> omega
    obtain ⟨counts, folded, total⟩ := ih next joined later
    refine ⟨counts, ?_, fun height => ?_⟩
    · rw [List.foldlM_cons, counted]
      exact folded
    · rw [total, heights, List.countP_cons, Nat.add_assoc, Nat.add_comm (List.countP _ _)]
      simp only [decide_eq_true_eq]

/-- The steps of an accepted chain all have a place in the table. -/
theorem Climbs.exists_countSteps? {chain : List Nat} (climbs : Climbs chain) :
    ∃ counts : StepTable, countSteps? chain = some counts ∧ counts.Tallies (neighbours chain) := by
  have few : (neighbours chain).length < 2 ^ 64 := by
    have := climbs.length_lt
    simp only [neighbours, List.length_zip, List.length_tail]
    omega
  have none (height : Fin 4) : (Vector.replicate 4 0 : StepTable)[height] = 0 := Vector.getElem_replicate _
  obtain ⟨counts, counted, total⟩ := foldlM_count? (Vector.replicate 4 0)
    (forall_neighbours_iff.mpr climbs.joined) fun height => by rw [none]; omega
  refine ⟨counts, counted, fun height => ?_⟩
  rw [total, none, Nat.zero_add]

end PuzzleCalendar.Adapters
