import Mathlib.Algebra.Order.BigOperators.Group.List
import Mathlib.Algebra.Order.Ring.Nat
import Mathlib.Data.List.Sort
import Mathlib.Data.List.Sublists
import PuzzleCalendar.Proofs.Adapters.Chain
import PuzzleCalendar.Proofs.Memo.Evaluation
import PuzzleCalendar.Proofs.Number.Sums

/-! # Counting arrangements

An arrangement of a chain keeps its ends and leaves out adapters as long as no step gets higher than
three. The last place but one of an arrangement is any earlier place within three jolts, and as an
accepted chain climbs with every step it is one of the three places before. So the recurrence over the
places counts the arrangements of every front part of the chain, and these only grow in number.
-/

namespace PuzzleCalendar.Adapters

/-- A step is at most three high. -/
def Near (low high : Nat) : Prop := high ≤ low + 3

instance (low high : Nat) : Decidable (Near low high) := Nat.decLe _ _

/-- A part of a chain keeps both ends, and its steps are at most three high. -/
def Arranges (chain kept : List Nat) : Prop :=
  kept.head? = chain.head? ∧ kept.getLast? = chain.getLast? ∧ kept.IsChain Near

instance (chain kept : List Nat) : Decidable (Arranges chain kept) :=
  inferInstanceAs (Decidable (_ ∧ _ ∧ _))

/-- All arrangements of a chain. -/
def arrangementsOf (chain : List Nat) : List (List Nat) :=
  chain.sublists.filter (Arranges chain ·)

/-- The number of ways from the first of some places, or from the place itself when there are none, to a
place above them. -/
def ways (before : List Nat) (place : Nat) : Nat :=
  before.sublists.countP fun kept =>
    (kept ++ [place]).head? = (before ++ [place]).head? ∧ (kept ++ [place]).IsChain Near

theorem ways_nil (place : Nat) : ways [] place = 1 := by
  simp [ways]

/-- The ways to a place do not use the last place before it, or come from there. -/
theorem ways_concat {before : List Nat} {last place : Nat} (above : last < place) :
    ways (before ++ [last]) place =
      (if before = [] then 0 else ways before place) + if Near last place then ways before last else 0 := by
  rw [ways, List.sublists_concat, List.countP_append, List.countP_map]
  congr 1
  · by_cases first : before = []
    · subst first
      have apart : place ≠ last := above.ne'
      simp [apart]
    · rw [if_neg first, ways]
      refine List.countP_congr fun kept _ => ?_
      rw [List.append_assoc, List.head?_append_of_ne_nil _ first, List.head?_append_of_ne_nil _ first]
  · by_cases near : Near last place
    · rw [if_pos near, ways]
      refine List.countP_congr fun kept _ => ?_
      simp [List.isChain_append, near]
    · rw [if_neg near, List.countP_eq_zero]
      intro kept _ arranged
      simp [List.isChain_append, near] at arranged

/-- The number of arrangements of a chain is that of the ways to its last place. -/
theorem length_arrangementsOf_concat {before : List Nat} {last : Nat} (fresh : last ∉ before) :
    (arrangementsOf (before ++ [last])).length = ways before last := by
  have skipped : before.sublists.countP (fun kept => Arranges (before ++ [last]) kept) = 0 := by
    rw [List.countP_eq_zero]
    intro kept member arranged
    have ends := (of_decide_eq_true arranged).2.1
    rw [List.getLast?_concat] at ends
    exact fresh ((List.mem_sublists.mp member).subset (List.mem_of_getLast? ends))
  rw [arrangementsOf, ← List.countP_eq_length_filter, List.sublists_concat, List.countP_append, skipped,
    Nat.zero_add, List.countP_map, ways]
  refine List.countP_congr fun kept _ => ?_
  simp [Arranges]

/-- The number of ways to a place of a chain from its start. -/
def waysTo (chain : List Nat) (place : Nat) : Nat := ways (chain.take place) (chain.getD place 0)

theorem take_succ_eq {chain : List Nat} {place : Nat} (inside : place < chain.length) :
    chain.take (place + 1) = chain.take place ++ [chain.getD place 0] := by
  rw [List.take_add_one, List.getElem?_eq_getElem inside, List.getD_eq_getElem?_getD,
    List.getElem?_eq_getElem inside]
  rfl

namespace Climbs

variable {chain : List Nat} (climbs : Climbs chain)

include climbs

theorem getD_lt {low high : Nat} (before : low < high) (inside : high < chain.length) :
    chain.getD low 0 < chain.getD high 0 := by
  have steps := climbs.add_le_getD low (high - low) (by omega)
  rw [Nat.add_sub_of_le before.le] at steps
  omega

/-- The ways to a place come from any earlier place within three jolts. -/
theorem waysTo_eq_sum {place : Nat} (positive : 0 < place) (inside : place < chain.length) :
    waysTo chain place = (((List.range place).filter fun origin =>
      Near (chain.getD origin 0) (chain.getD place 0)).map (waysTo chain)).sum := by
  have single (origin : Nat) : (([origin].filter fun origin =>
      Near (chain.getD origin 0) (chain.getD place 0)).map (waysTo chain)).sum =
        if Near (chain.getD origin 0) (chain.getD place 0) then waysTo chain origin else 0 := by
    by_cases near : Near (chain.getD origin 0) (chain.getD place 0)
    · simp only [List.filter_singleton, near, decide_true, cond_true, List.map_singleton, List.sum_singleton,
        if_true]
    · simp only [List.filter_singleton, near, decide_false, cond_false, List.map_nil, List.sum_nil, if_false]
  have upTo (count : Nat) (within : count + 1 ≤ place) :
      ways (chain.take (count + 1)) (chain.getD place 0) = (((List.range (count + 1)).filter fun origin =>
        Near (chain.getD origin 0) (chain.getD place 0)).map (waysTo chain)).sum := by
    induction count with
    | zero =>
      rw [take_succ_eq (by omega), ways_concat (climbs.getD_lt (by omega) inside), if_pos List.take_zero,
        List.range_succ, List.filter_append, List.map_append, List.sum_append, single]
      rfl
    | succ count ih =>
      have filled : chain.take (count + 1) ≠ [] := by
        rw [take_succ_eq (by omega)]
        exact List.concat_ne_nil _ _
      rw [take_succ_eq (by omega), ways_concat (climbs.getD_lt (by omega) inside), if_neg filled, ih (by omega),
        List.range_succ (n := count + 1), List.filter_append, List.map_append, List.sum_append, single]
      rfl
  obtain ⟨count, rfl⟩ := Nat.exists_eq_succ_of_ne_zero positive.ne'
  exact upTo count (Nat.le_refl _)

/-- No step leads to a place from more than three places before it. -/
theorem origins_eq {place : Nat} (inside : place < chain.length) :
    origins chain.toArray place = (List.range place).filter fun origin =>
      Near (chain.getD origin 0) (chain.getD place 0) := by
  have split : List.range place =
      List.range' 0 (place - 3) ++ List.range' (0 + (place - 3)) (place - (place - 3)) := by
    rw [List.range'_append_1, List.range_eq_range', Nat.add_sub_of_le (Nat.sub_le place 3)]
  have far : (List.range' 0 (place - 3)).filter
      (fun origin => Near (chain.getD origin 0) (chain.getD place 0)) = [] := by
    rw [List.filter_eq_nil_iff]
    intro origin member near
    have before := (List.mem_range'_1.mp member).2
    have steps := climbs.add_le_getD origin (place - origin) (by omega)
    rw [Nat.add_sub_of_le (by omega)] at steps
    have close : chain.getD place 0 ≤ chain.getD origin 0 + 3 := of_decide_eq_true near
    omega
  rw [split, List.filter_append, far, List.nil_append, Nat.zero_add, origins]
  refine List.filter_congr fun origin _ => ?_
  rw [decide_eq_decide]
  simp only [Array.getD_eq_getD_getElem?, List.getElem?_toArray, List.getD_eq_getElem?_getD, Near]
  omega

theorem waysTo_le_succ {place : Nat} (inside : place + 1 < chain.length) :
    waysTo chain place ≤ waysTo chain (place + 1) := by
  rw [climbs.waysTo_eq_sum (Nat.succ_pos place) inside]
  apply List.le_sum_of_mem
  apply List.mem_map_of_mem
  rw [List.mem_filter]
  refine ⟨List.mem_range.mpr (Nat.lt_succ_self place), decide_eq_true ?_⟩
  have step := (List.isChain_iff_getElem.mp climbs.joined place inside).2
  rw [List.getD_eq_getElem _ _ (Nat.lt_of_succ_lt inside), List.getD_eq_getElem _ _ inside]
  exact step

/-- No earlier place has more ways. -/
theorem waysTo_mono {low high : Nat} (before : low ≤ high) (inside : high < chain.length) :
    waysTo chain low ≤ waysTo chain high := by
  induction high, before using Nat.le_induction with
  | base => exact Nat.le_refl _
  | succ high _ ih => exact (ih (Nat.lt_of_succ_lt inside)).trans (climbs.waysTo_le_succ inside)

/-- The recurrence counts the ways to each place as long as a word holds them. -/
theorem value_arrangements {place : Nat} (inside : place < chain.length) :
    (arrangements chain.toArray).value place = Number.word64? (waysTo chain place) := by
  induction place using Nat.strongRecOn with
  | _ place ih =>
    rw [Memo.Recurrence.value_eq]
    by_cases first : place = 0
    · subst first
      exact (congrArg Number.word64? (ways_nil _)).symm
    · have deps : ((arrangements chain.toArray).deps place).map (arrangements chain.toArray).value =
          (((List.range place).filter fun origin =>
            Near (chain.getD origin 0) (chain.getD place 0)).map (waysTo chain)).map Number.word64? := by
        rw [List.map_map]
        refine (congrArg _ (climbs.origins_eq inside)).trans (List.map_congr_left fun origin member => ?_)
        have before := List.mem_range.mp (List.mem_of_mem_filter member)
        exact ih origin before (before.trans inside)
      rw [deps, climbs.waysTo_eq_sum (Nat.pos_of_ne_zero first) inside, ← Number.bind_mapM_word64?]
      exact if_neg first

/-- The front parts of a chain have as many arrangements as there are ways to their ends. -/
theorem length_arrangementsOf_take {place : Nat} (inside : place < chain.length) :
    (arrangementsOf (chain.take (place + 1))).length = waysTo chain place := by
  have fresh : chain.getD place 0 ∉ chain.take place := by
    have distinct := climbs.nodup.sublist (List.take_sublist (place + 1) chain)
    rw [take_succ_eq inside, List.nodup_append] at distinct
    exact fun member => distinct.2.2 _ member _ (List.mem_singleton_self _) rfl
  rw [take_succ_eq inside, length_arrangementsOf_concat fresh]
  rfl

/-- The cache has room for all places, and its value for the last one is the recurrence's. -/
theorem countArrangements?_eq :
    countArrangements? chain = Number.word64? (arrangementsOf chain).length := by
  have two := climbs.two_le_length
  have few := climbs.length_lt
  have last : (arrangements chain.toArray).value (chain.length - 1) =
      Number.word64? (arrangementsOf chain).length := by
    rw [climbs.value_arrangements (by omega), ← climbs.length_arrangementsOf_take (by omega),
      Nat.sub_add_cancel (by omega), List.take_length]
  have room (place : Nat) (reached : (arrangements chain.toArray).Reaches (chain.length - 1) place) :
      place < Memo.greatestLength := by
    have below := reached.le lt_of_mem_origins
    simp only [Memo.greatestLength]
    omega
  obtain ⟨-, next, ran, -⟩ | ⟨⟨place, reached, full⟩, -⟩ :=
    Memo.resolves_resolve (σ := Memo.DenseStore Memo.greatestLength (Option Nat))
      (arrangements chain.toArray) (chain.length - 1) .empty .empty
  · rw [countArrangements?, ran, ← last]
    rfl
  · exact absurd (room place reached) full

end Climbs

/-- Both parts of the puzzle count what they are to count in a chain. -/
structure CountsArrangements (chain : List Nat) : Prop where
  /-- The second part answers with the number of arrangements when a word holds it, and faults otherwise. -/
  answer_eq : arrangementCount chain =
    if (arrangementsOf chain).length < 2 ^ 64 then .ok (toString (arrangementsOf chain).length)
    else Outcome.fault
  /-- The arrangements are the parts of the chain from the outlet to the device without a step above three. -/
  mem_iff (kept : List Nat) : kept ∈ arrangementsOf chain ↔
    kept.Sublist chain ∧ kept.head? = some 0 ∧ kept.getLast? = chain.getLast? ∧
      ∀ pair ∈ neighbours kept, pair.2 - pair.1 ≤ 3
  nodup : (arrangementsOf chain).Nodup
  /-- For every place the recurrence has the number of arrangements of the chain up to there. -/
  value_eq {place : Nat} : place < chain.length → (arrangements chain.toArray).value place =
    Number.word64? (arrangementsOf (chain.take (place + 1))).length
  /-- No front part of the chain has more arrangements than the chain. -/
  length_take_le {place : Nat} : place < chain.length →
    (arrangementsOf (chain.take (place + 1))).length ≤ (arrangementsOf chain).length
  /-- The first part finds a place in its table for every step. -/
  steps : ∃ counts : StepTable, countSteps? chain = some counts ∧ counts.Tallies (neighbours chain)

/-- The number of arrangements of an accepted chain is counted exactly, and the count is a fault only when
that number is no word. -/
theorem countsArrangements_of_parse {text : Text} {chain : List Nat} (parsed : parse text = .ok chain) :
    CountsArrangements chain := by
  have climbs := climbs_of_parse parsed
  refine ⟨?_, ?_, ?_, ?_, ?_, climbs.exists_countSteps?⟩
  · rw [arrangementCount, climbs.countArrangements?_eq, Number.word64?, bind_orFault_ite]
    rfl
  · intro kept
    have steps : (∀ pair ∈ neighbours kept, pair.2 - pair.1 ≤ 3) ↔ kept.IsChain Near := by
      rw [← forall_neighbours_iff]
      exact forall₂_congr fun pair _ => Nat.sub_le_iff_le_add'
    rw [arrangementsOf, List.mem_filter, List.mem_sublists, decide_eq_true_iff, Arranges, climbs.outlet, steps]
  · exact (List.nodup_sublists.mpr climbs.nodup).filter _
  · intro place inside
    rw [climbs.length_arrangementsOf_take inside]
    exact climbs.value_arrangements inside
  · intro place inside
    have whole : (arrangementsOf (chain.take (chain.length - 1 + 1))).length = waysTo chain (chain.length - 1) :=
      climbs.length_arrangementsOf_take (by omega)
    rw [Nat.sub_add_cancel (by omega), List.take_length] at whole
    rw [climbs.length_arrangementsOf_take inside, whole]
    exact climbs.waysTo_mono (by omega) (by omega)

/-- Four adapters one jolt apart and a fifth three above them, out of order. -/
def bag : Text := "3\n1\n7\n2\n4\n".toList

theorem countsArrangements_bag : parse bag = .ok [0, 1, 2, 3, 4, 7, 10] ∧
    CountsArrangements [0, 1, 2, 3, 4, 7, 10] ∧
    arrangementsOf [0, 1, 2, 3, 4, 7, 10] = [[0, 1, 4, 7, 10], [0, 2, 4, 7, 10], [0, 1, 2, 4, 7, 10],
      [0, 3, 4, 7, 10], [0, 1, 3, 4, 7, 10], [0, 2, 3, 4, 7, 10], [0, 1, 2, 3, 4, 7, 10]] := by
  have read : readAdapters bag = .ok [3, 1, 7, 2, 4] := by decide +kernel
  have order : ([0, 3, 1, 7, 2, 4].mergeSort (· ≤ ·)).Perm [0, 1, 2, 3, 4, 7] :=
    (List.mergeSort_perm _ _).trans (by decide)
  have sorted : [0, 3, 1, 7, 2, 4].mergeSort (· ≤ ·) = [0, 1, 2, 3, 4, 7] :=
    order.eq_of_pairwise' (pairwise_mergeSort _) (by decide)
  have parsed : parse bag = .ok [0, 1, 2, 3, 4, 7, 10] := by
    rw [parse, read]
    change chainOf [3, 1, 7, 2, 4] = _
    rw [chainOf, sorted]
    rfl
  exact ⟨parsed, countsArrangements_of_parse parsed, by decide +kernel⟩

end PuzzleCalendar.Adapters
