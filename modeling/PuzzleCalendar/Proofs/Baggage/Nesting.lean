import Mathlib.Algebra.Order.BigOperators.Group.List
import Mathlib.Algebra.Order.Ring.Nat
import Mathlib.Data.List.Nodup
import Mathlib.Logic.Relation
import PuzzleCalendar.Proofs.Graph.Cycles
import PuzzleCalendar.Proofs.Memo.Evaluation
import PuzzleCalendar.Puzzles.Baggage

/-! # The bags nested inside a bag

The rules of a text are about different colors, so the edges of their graph are the contents of the colors. The
recursion over the contents ends exactly where no color leads to one inside itself, and there one number of
bags fits each color. What the recursion finds for a color is that number. As every bag counts at least itself,
no inner number reaches an outer one, and a word that holds the outermost number holds all sums on the way.
-/

namespace PuzzleCalendar.Baggage

open Relation

/-- A bag of a color directly holds bags of another one. -/
def Rules.Holds (rules : Rules) (outer inner : Text) : Prop :=
  ∃ count, (count, inner) ∈ rules.contents outer

/-- A color is another one, or a bag of it holds bags of the other one at any depth. -/
def Rules.LeadsTo (rules : Rules) : Text → Text → Prop := ReflTransGen rules.Holds

/-- A bag of a color holds bags of that color at some depth. -/
def Rules.HoldsItself (rules : Rules) (color : Text) : Prop := TransGen rules.Holds color color

/-- The bags inside a bag of a color, when `number` tells them for each inner color. -/
def Rules.bagsInside (rules : Rules) (number : Text → Nat) (color : Text) : Nat :=
  ((rules.contents color).map fun content => content.1 * (1 + number content.2)).sum

/-- `number` tells the bags inside for all colors that a color leads to. -/
def Rules.Numbers (rules : Rules) (start : Text) (number : Text → Nat) : Prop :=
  ∀ color, rules.LeadsTo start color → number color = rules.bagsInside number color

/-- Every count in the contents of the colors that a color leads to is at least one. -/
def Rules.Filled (rules : Rules) (start : Text) : Prop :=
  ∀ color, rules.LeadsTo start color → ∀ content ∈ rules.contents color, 1 ≤ content.1

/-- No two rules are about the same color. -/
def Rules.Distinct (rules : Rules) : Prop := (rules.map Prod.fst).Nodup

/-- A rule for a new color keeps the colors distinct, and so does one that replaces another. -/
theorem Rules.Distinct.insert {rules : Rules} (distinct : rules.Distinct) (rule : Text × Contents) :
    (rules.insert rule).Distinct := by
  rw [Distinct, Rules.insert, List.map_append, List.nodup_append]
  refine ⟨distinct.sublist (List.filter_sublist.map _), List.nodup_singleton _, ?_⟩
  intro color member other last same
  obtain ⟨kept, filtered, rfl⟩ := List.mem_map.mp member
  have apart := (List.mem_filter.mp filtered).2
  obtain rfl : other = rule.1 := by simpa using last
  rw [same, bne_self_eq_false] at apart
  contradiction

theorem distinct_of_parse {text : Text} {rules : Rules} (parsed : parse text = .ok rules) : rules.Distinct := by
  obtain ⟨read, -, folded⟩ := bind_eq_ok_iff.mp (Outcome.ofExcept_eq_ok_iff.mp parsed)
  cases folded
  exact List.foldlRecOn read Rules.insert List.nodup_nil fun rules distinct rule _ => distinct.insert rule

theorem Rules.Distinct.lookup_eq {rules : Rules} (distinct : rules.Distinct) {rule : Text × Contents}
    (member : rule ∈ rules) : rules.lookup rule.1 = some rule.2 := by
  obtain ⟨before, after, rfl⟩ := List.append_of_mem member
  refine List.lookup_eq_some_iff.mpr ⟨before, after, rfl, fun other earlier => ?_⟩
  rw [Distinct, List.map_append, List.nodup_append] at distinct
  exact bne_iff_ne.mpr (distinct.2.2 _ (List.mem_map_of_mem earlier) _ List.mem_cons_self).symm

/-- The edges of the graph are the contents of the colors. -/
theorem Rules.Distinct.leads_eq {rules : Rules} (distinct : rules.Distinct) : rules.graph.Leads = rules.Holds := by
  funext outer inner
  rw [eq_iff_iff]
  constructor
  · intro edge
    obtain ⟨rule, member, edge⟩ := List.mem_flatMap.mp edge
    obtain ⟨content, held, same⟩ := List.mem_map.mp edge
    cases same
    refine ⟨content.1, ?_⟩
    rw [contents, distinct.lookup_eq member]
    exact held
  · rintro ⟨count, held⟩
    exact edge_of_mem_contents held

section Adding

variable {pairs : List ((Nat × Text) × Nat)} {start total : Nat}

/-- Where words hold all sums on the way, the bags are added up exactly. -/
theorem foldlM_addBags?_eq_some (added : pairs.foldlM addBags? start = some total) :
    start + (pairs.map fun pair => pair.1.1 * (1 + pair.2)).sum = total := by
  induction pairs generalizing start with
  | nil => exact Option.some.inj added
  | cons pair pairs ih =>
    rw [List.foldlM_cons, Option.bind_eq_bind, Option.bind_eq_some_iff] at added
    obtain ⟨sum, first, rest⟩ := added
    obtain ⟨rfl, -⟩ := addBags?_eq_some_iff.mp first
    rw [← ih rest, List.map_cons, List.sum_cons, Nat.add_assoc]

/-- A word that holds the sum of all bags holds every sum on the way when no content counts nothing. -/
theorem foldlM_addBags?_of_word (counted : ∀ pair ∈ pairs, 1 ≤ pair.1.1)
    (word : start + (pairs.map fun pair => pair.1.1 * (1 + pair.2)).sum < 2 ^ 64) :
    pairs.foldlM addBags? start = some (start + (pairs.map fun pair => pair.1.1 * (1 + pair.2)).sum) := by
  induction pairs generalizing start with
  | nil => rfl
  | cons pair pairs ih =>
    obtain ⟨positive, counted⟩ := List.forall_mem_cons.mp counted
    rw [List.map_cons, List.sum_cons, ← Nat.add_assoc] at word ⊢
    have bag : 1 + pair.2 ≤ pair.1.1 * (1 + pair.2) := Nat.le_mul_of_pos_left _ positive
    have first : addBags? start pair = some (start + pair.1.1 * (1 + pair.2)) :=
      addBags?_eq_some_iff.mpr ⟨rfl, by omega, by omega⟩
    rw [List.foldlM_cons, Option.bind_eq_bind, first, Option.bind_some]
    exact ih counted word

variable {contents : Contents} {inside : Nat × Text → Nat}

theorem nested?_map : nested? contents (contents.map inside) =
    (contents.map fun content => (content, inside content)).foldlM addBags? 0 := by
  rw [nested?, List.map_prod_left_eq_zip]

theorem nested?_eq_some (found : nested? contents (contents.map inside) = some total) :
    (contents.map fun content => content.1 * (1 + inside content)).sum = total := by
  rw [nested?_map] at found
  have sum := foldlM_addBags?_eq_some found
  rw [List.map_map, Nat.zero_add] at sum
  exact sum

theorem nested?_of_word (counted : ∀ content ∈ contents, 1 ≤ content.1)
    (word : (contents.map fun content => content.1 * (1 + inside content)).sum < 2 ^ 64) :
    nested? contents (contents.map inside) =
      some (contents.map fun content => content.1 * (1 + inside content)).sum := by
  have sum : (contents.map fun content => (content, inside content)).map
      (fun pair => pair.1.1 * (1 + pair.2)) =
        contents.map fun content => content.1 * (1 + inside content) := List.map_map
  rw [nested?_map, foldlM_addBags?_of_word, sum, Nat.zero_add]
  · intro pair member
    obtain ⟨content, held, rfl⟩ := List.mem_map.mp member
    exact counted content held
  · rw [sum, Nat.zero_add]
    exact word

end Adding

section Numbers

variable {rules : Rules} {number : Text → Nat} {color : rules.Bounded}

/-- A list of colors that has all that its colors hold has all that they lead to. -/
theorem Rules.LeadsTo.mem_of_closed {start color : Text} {colors : List Text} (path : rules.LeadsTo start color)
    (closed : ∀ outer ∈ colors, ∀ content ∈ rules.contents outer, content.2 ∈ colors) (first : start ∈ colors) :
    color ∈ colors := by
  induction path with
  | refl => exact first
  | tail _ holds ih =>
    obtain ⟨count, held⟩ := holds
    exact closed _ ih _ held

theorem mem_deps_nesting {inner : rules.Bounded} :
    inner ∈ rules.nesting.deps color ↔ rules.Holds color.1 inner.1 := by
  constructor
  · intro member
    obtain ⟨content, _, rfl⟩ := List.mem_map.mp member
    exact ⟨content.1.1, content.2⟩
  · rintro ⟨count, held⟩
    exact List.mem_map.mpr ⟨⟨_, held⟩, List.mem_attach _ _, rfl⟩

theorem Rules.LeadsTo.grounded {start color : Text} (path : rules.LeadsTo start color)
    (grounded : rules.graph.Grounded start) : rules.graph.Grounded color := by
  apply grounded.of_reaches
  refine ReflTransGen.mono ?_ _ _ path
  rintro outer inner ⟨count, held⟩
  exact edge_of_mem_contents held

/-- The recursion for a color leads to all that the color leads to. -/
theorem reaches_nesting_iff {inner : rules.Bounded} :
    rules.nesting.Reaches color inner ↔ rules.LeadsTo color.1 inner.1 := by
  constructor
  · intro path
    induction path using ReflTransGen.head_induction_on with
    | refl => exact .refl
    | head member _ ih => exact ih.tail (mem_deps_nesting.mp member)
  · obtain ⟨inner, grounded⟩ := inner
    intro (path : rules.LeadsTo color.1 inner)
    induction path with
    | refl => exact .refl
    | tail earlier holds ih => exact (ih (Rules.LeadsTo.grounded earlier color.2)).head (mem_deps_nesting.mpr holds)

theorem map_deps_nesting : (rules.nesting.deps color).map (fun inner => number inner.1) =
    (rules.contents color.1).map fun content => number content.2 :=
  List.map_map.trans (List.attach_map_val (f := fun content : Nat × Text => number content.2))

theorem value_nesting (color : rules.Bounded) : rules.nesting.value color =
    ((rules.nesting.deps color).map rules.nesting.value).mapM id >>= nested? (rules.contents color.1) :=
  rules.nesting.value_eq color

/-- What a color leads to is numbered with it. -/
theorem Rules.Numbers.of_leadsTo {start color : Text} (numbers : rules.Numbers start number)
    (path : rules.LeadsTo start color) : rules.Numbers color number :=
  fun other later => numbers other (path.trans later)

theorem Rules.Filled.of_leadsTo {start color : Text} (filled : rules.Filled start)
    (path : rules.LeadsTo start color) : rules.Filled color :=
  fun other later => filled other (path.trans later)

theorem map_value_nesting
    (known : ∀ inner ∈ rules.nesting.deps color, rules.nesting.value inner = some (number inner.1)) :
    (rules.nesting.deps color).map rules.nesting.value =
      ((rules.contents color.1).map fun content => number content.2).map some := by
  rw [List.map_congr_left known, ← map_deps_nesting, List.map_map]
  rfl

/-- What the recursion finds is the number of bags. -/
theorem number_eq_of_value (numbers : rules.Numbers color.1 number) {inside : Nat}
    (found : rules.nesting.value color = some inside) : number color.1 = inside := by
  induction color using rules.nesting.wellFounded.induction generalizing inside with
  | _ color ih =>
    rw [value_nesting] at found
    obtain ⟨insides, each, sum⟩ := Option.bind_eq_some_iff.mp found
    rw [mapM_id_eq_some_iff] at each
    -- A sum was found, so there is a value for each inner color.
    have known : ∀ inner ∈ rules.nesting.deps color, rules.nesting.value inner = some (number inner.1) := by
      intro inner member
      have held : rules.nesting.value inner ∈ insides.map some := each ▸ List.mem_map_of_mem member
      obtain ⟨value, -, same⟩ := List.mem_map.mp held
      have path : rules.LeadsTo color.1 inner.1 := .single (mem_deps_nesting.mp member)
      rw [ih inner member (numbers.of_leadsTo path) same.symm, same]
    rw [map_value_nesting known] at each
    obtain rfl := List.map_injective_iff.mpr (Option.some_injective Nat) each
    exact (numbers color.1 .refl).trans (nested?_eq_some sum)

/-- A bag holds more bags than each bag in it when all counts are at least one. -/
theorem number_lt_of_holds {outer inner : Text} (numbers : rules.Numbers outer number)
    (filled : rules.Filled outer) (holds : rules.Holds outer inner) : number inner < number outer := by
  obtain ⟨count, held⟩ := holds
  calc number inner
    _ < 1 + number inner := Nat.lt_add_of_pos_left Nat.one_pos
    _ ≤ count * (1 + number inner) := Nat.le_mul_of_pos_left _ (filled outer .refl _ held)
    _ ≤ rules.bagsInside number outer := List.le_sum_of_mem (List.mem_map.mpr ⟨_, held, rfl⟩)
    _ = number outer := (numbers outer .refl).symm

theorem number_le_of_leadsTo {start color : Text} (numbers : rules.Numbers start number)
    (filled : rules.Filled start) (path : rules.LeadsTo start color) : number color ≤ number start := by
  induction path with
  | refl => exact Nat.le_refl _
  | tail earlier holds ih =>
    have below := number_lt_of_holds (numbers.of_leadsTo earlier) (filled.of_leadsTo earlier) holds
    exact below.le.trans ih

/-- Colors with numbers do not hold themselves when all counts are at least one. -/
theorem not_holdsItself_of_numbers {start : Text} (numbers : rules.Numbers start number)
    (filled : rules.Filled start) : ¬ rules.HoldsItself start := by
  intro cycle
  obtain ⟨inner, holds, back⟩ := TransGen.head'_iff.mp cycle
  have path : rules.LeadsTo start inner := .single holds
  have below := number_lt_of_holds numbers filled holds
  have above := number_le_of_leadsTo (numbers.of_leadsTo path) (filled.of_leadsTo path) back
  exact Nat.not_lt.mpr above below

/-- The recursion finds the number of bags when a word holds it and all counts are at least one. -/
theorem value_eq_of_word (numbers : rules.Numbers color.1 number) (filled : rules.Filled color.1)
    (word : number color.1 < 2 ^ 64) : rules.nesting.value color = some (number color.1) := by
  induction color using rules.nesting.wellFounded.induction with
  | _ color ih =>
    have known : ∀ inner ∈ rules.nesting.deps color, rules.nesting.value inner = some (number inner.1) := by
      intro inner member
      have path : rules.LeadsTo color.1 inner.1 := .single (mem_deps_nesting.mp member)
      have below := number_le_of_leadsTo numbers filled path
      exact ih inner member (numbers.of_leadsTo path) (filled.of_leadsTo path) (below.trans_lt word)
    have total := numbers color.1 .refl
    rw [total] at word ⊢
    rw [value_nesting, mapM_id_eq_some_iff.mpr (map_value_nesting known)]
    exact nested?_of_word (filled color.1 .refl) word

/-- The recursion over numbers of any size. -/
def Rules.exactNesting (rules : Rules) : Memo.Recurrence rules.Bounded Nat where
  deps := rules.nesting.deps
  compute color insides :=
    (List.zipWith (fun content inside => content.1 * (1 + inside)) (rules.contents color.1) insides).sum
  wellFounded := rules.nesting.wellFounded

open Classical in
/-- The number of bags inside a bag of a color that leads to no color inside itself. -/
noncomputable def Rules.exactNumber (rules : Rules) (color : Text) : Nat :=
  if grounded : rules.graph.Grounded color then rules.exactNesting.value ⟨color, grounded⟩ else 0

theorem numbers_exactNumber {start : Text} (grounded : rules.graph.Grounded start) :
    rules.Numbers start rules.exactNumber := by
  intro color path
  have below := path.grounded grounded
  have value (inner : rules.Bounded) : rules.exactNesting.value inner = rules.exactNumber inner.1 := by
    rw [Rules.exactNumber, dif_pos inner.2]
  have each : (rules.exactNesting.deps ⟨color, below⟩).map rules.exactNesting.value =
      (rules.contents color).map fun content => rules.exactNumber content.2 := by
    rw [List.map_congr_left fun inner _ => value inner]
    exact map_deps_nesting
  rw [← value ⟨color, below⟩, Memo.Recurrence.value_eq, each, Rules.bagsInside]
  exact congrArg List.sum (by rw [List.zipWith_map_right, List.zipWith_self])

/-- There is only one number for each color. -/
theorem number_unique {other : Text → Nat} {start : Text} (grounded : rules.graph.Grounded start)
    (numbers : rules.Numbers start number) (others : rules.Numbers start other) : number start = other start := by
  induction grounded with
  | intro color _ ih =>
    rw [numbers color .refl, others color .refl, Rules.bagsInside, Rules.bagsInside]
    congr 1
    apply List.map_congr_left
    intro content held
    have path : rules.LeadsTo color content.2 := .single ⟨content.1, held⟩
    rw [ih content.2 (Rules.edge_of_mem_contents held) (numbers.of_leadsTo path) (others.of_leadsTo path)]

end Numbers

section Counting

variable {rules : Rules}

/-- What the recursion remembers. -/
abbrev Rules.BagCache (rules : Rules) :=
  Memo.Cache (Memo.SparseStore rules.Bounded (Option Nat)) rules.Bounded

/-- The recursion ends, and it computes each color that a color leads to once. -/
theorem exists_run_resolve (color : rules.Bounded) : ∃ cache : rules.BagCache,
    (rules.nesting.resolve color).run.run Memo.Cache.empty = (some (rules.nesting.value color), cache) ∧
      cache.computed.Nodup ∧ ∀ inner, inner ∈ cache.computed ↔ rules.LeadsTo color.1 inner.1 := by
  obtain ⟨-, cache, ran, faithful, grown⟩ | ⟨⟨_, _, full⟩, -⟩ :=
    Memo.resolves_resolve (σ := Memo.SparseStore rules.Bounded (Option Nat)) rules.nesting color .empty .empty
  · refine ⟨cache, ran, faithful.nodup, fun inner => ?_⟩
    rw [grown, reaches_nesting_iff]
    exact or_iff_right List.not_mem_nil
  · exact absurd trivial full

theorem countInside?_eq (color : rules.Bounded) : rules.countInside? color = rules.nesting.value color := by
  obtain ⟨cache, ran, -⟩ := exists_run_resolve color
  rw [Rules.countInside?, ran]
  rfl

/-- The three ways in which the second part ends. -/
theorem countNested_cases (rules : Rules) :
    (rules.lookup target = none ∧
      countNested rules = Outcome.report (.noSolution s!"no rule for {String.ofList target} bags")) ∨
    rules.lookup target ≠ none ∧
      ((∃ color, rules.graph.cycleFrom target = some color ∧ countNested rules =
          Outcome.report (.noSolution s!"{String.ofList color} bags end up containing themselves")) ∨
        ∃ none : rules.graph.cycleFrom target = none, countNested rules =
          Outcome.orFault (rules.nesting.value ⟨target, Graph.grounded_of_cycleFrom none⟩) >>=
            fun inside => pure (toString inside)) := by
  by_cases missing : (rules.lookup target).isNone
  · rw [countNested, if_pos missing]
    exact .inl ⟨Option.isNone_iff_eq_none.mp missing, rfl⟩
  · rw [countNested, if_neg missing]
    refine .inr ⟨fun absent => missing (Option.isNone_iff_eq_none.mpr absent), ?_⟩
    split
    · next color found => exact .inl ⟨color, found, rfl⟩
    · next none =>
      rw [countInside?_eq]
      exact .inr ⟨none, rfl⟩

/-- There is a rule for the target, and it leads to no color inside itself. -/
def Rules.HasTotal (rules : Rules) : Prop :=
  rules.lookup target ≠ none ∧ ∀ color, rules.LeadsTo target color → ¬ rules.HoldsItself color

/-- The second part of the puzzle does with some rules what it is to do. -/
structure CountsNested (rules : Rules) : Prop where
  /-- No solution is reported exactly when there is no rule for the target or it leads to a color inside itself. -/
  noSolution_iff : (∃ reason, countNested rules = Outcome.report (.noSolution reason)) ↔
    rules.lookup target = none ∨ ∃ color, rules.LeadsTo target color ∧ rules.HoldsItself color
  /-- Nothing else is reported, and the report says which of the two it is. -/
  eq_of_report {error : SolveError} : countNested rules = Outcome.report error →
    (rules.lookup target = none ∧ error = .noSolution "no rule for shiny gold bags") ∨
      ∃ color, rules.LeadsTo target color ∧ rules.HoldsItself color ∧
        error = .noSolution s!"{String.ofList color} bags end up containing themselves"
  /-- Otherwise every chain of contents ends, and so does the recursion, which computes each color that the
  target leads to once. -/
  resolves : rules.HasTotal → ∃ grounded : rules.graph.Grounded target, ∃ inside, ∃ cache : rules.BagCache,
    (rules.nesting.resolve ⟨target, grounded⟩).run.run Memo.Cache.empty = (some inside, cache) ∧
      cache.computed.Nodup ∧ (∀ color, color ∈ cache.computed ↔ rules.LeadsTo target color.1) ∧
      countNested rules = Outcome.orFault inside >>= fun inside => pure (toString inside)
  /-- Then there is exactly one number of bags for the target. -/
  existsUnique_number : rules.HasTotal →
    ∃! inside, ∃ number, rules.Numbers target number ∧ number target = inside
  /-- An answer is that number. -/
  answer_eq {number : Text → Nat} {answer : String} : rules.Numbers target number →
    countNested rules = .ok answer → answer = toString (number target)
  /-- There is an answer, and words hold all sums for each color, when a word holds that number and all counts
  are at least one. -/
  answers {number : Text → Nat} : rules.HasTotal → rules.Numbers target number →
    rules.Filled target → number target < 2 ^ 64 → countNested rules = .ok (toString (number target)) ∧
      ∀ color : rules.Bounded, rules.LeadsTo target color.1 →
        rules.nesting.value color = some (number color.1)

theorem Rules.Distinct.cycleFrom_eq_none_iff (distinct : rules.Distinct) {start : Text} :
    rules.graph.cycleFrom start = none ↔ ∀ color, rules.LeadsTo start color → ¬ rules.HoldsItself color := by
  simp only [Graph.cycleFrom_eq_none_iff, Graph.Reaches, Graph.OnCycle, distinct.leads_eq]
  rfl

theorem Rules.Distinct.of_cycleFrom (distinct : rules.Distinct) {start color : Text}
    (found : rules.graph.cycleFrom start = some color) :
    rules.LeadsTo start color ∧ rules.HoldsItself color := by
  have onCycle := Graph.onCycle_of_cycleFrom found
  rw [Graph.Reaches, Graph.OnCycle, distinct.leads_eq] at onCycle
  exact onCycle

theorem orFault_bind_ne_report {inside : Option Nat} {error : SolveError} :
    (Outcome.orFault inside >>= fun inside => pure (toString inside)) ≠ Outcome.report error := by
  cases inside with
  | none => exact Outcome.report_ne_fault.symm
  | some inside => nofun

theorem Rules.Distinct.noSolution_iff (distinct : rules.Distinct) :
    (∃ reason, countNested rules = Outcome.report (.noSolution reason)) ↔
      rules.lookup target = none ∨ ∃ color, rules.LeadsTo target color ∧ rules.HoldsItself color := by
  obtain ⟨missing, reported⟩ | ⟨ruled, ⟨color, found, reported⟩ | ⟨none, counted⟩⟩ := countNested_cases rules
  · exact iff_of_true ⟨_, reported⟩ (.inl missing)
  · exact iff_of_true ⟨_, reported⟩ (.inr ⟨color, distinct.of_cycleFrom found⟩)
  · apply iff_of_false
    · rw [counted]
      exact fun ⟨_, reported⟩ => orFault_bind_ne_report reported
    · rintro (missing | ⟨color, path, cycle⟩)
      · exact ruled missing
      · exact distinct.cycleFrom_eq_none_iff.mp none color path cycle

theorem Rules.Distinct.eq_of_report (distinct : rules.Distinct) {error : SolveError}
    (ended : countNested rules = Outcome.report error) :
    (rules.lookup target = none ∧ error = .noSolution "no rule for shiny gold bags") ∨
      ∃ color, rules.LeadsTo target color ∧ rules.HoldsItself color ∧
        error = .noSolution s!"{String.ofList color} bags end up containing themselves" := by
  obtain ⟨missing, reported⟩ | ⟨-, ⟨color, found, reported⟩ | ⟨none, counted⟩⟩ := countNested_cases rules
  · cases reported.symm.trans ended
    exact .inl ⟨missing, rfl⟩
  · cases reported.symm.trans ended
    obtain ⟨path, cycle⟩ := distinct.of_cycleFrom found
    exact .inr ⟨color, path, cycle, rfl⟩
  · exact absurd (counted.symm.trans ended) orFault_bind_ne_report

/-- Rules with a total get it from the recursion. -/
theorem Rules.Distinct.countNested_eq (distinct : rules.Distinct) (total : rules.HasTotal) :
    ∃ grounded : rules.graph.Grounded target, countNested rules =
      Outcome.orFault (rules.nesting.value ⟨target, grounded⟩) >>= fun inside => pure (toString inside) := by
  obtain ⟨missing, -⟩ | ⟨-, ⟨color, found, -⟩ | ⟨none, counted⟩⟩ := countNested_cases rules
  · exact absurd missing total.1
  · obtain ⟨path, cycle⟩ := distinct.of_cycleFrom found
    exact absurd cycle (total.2 color path)
  · exact ⟨Graph.grounded_of_cycleFrom none, counted⟩

theorem answer_eq_of_numbers {number : Text → Nat} {answer : String} (numbers : rules.Numbers target number)
    (answered : countNested rules = .ok answer) : answer = toString (number target) := by
  obtain ⟨-, reported⟩ | ⟨-, ⟨color, -, reported⟩ | ⟨none, counted⟩⟩ := countNested_cases rules
  · cases reported.symm.trans answered
  · cases reported.symm.trans answered
  · obtain ⟨inside, found, same⟩ := bind_eq_ok_iff.mp (counted.symm.trans answered)
    cases same
    rw [number_eq_of_value numbers (Outcome.orFault_eq_ok_iff.mp found)]

/-- The second part of the puzzle counts the bags inside the target in the rules of every text. -/
theorem countsNested_of_parse {text : Text} (parsed : parse text = .ok rules) : CountsNested rules := by
  have distinct := distinct_of_parse parsed
  refine ⟨distinct.noSolution_iff, distinct.eq_of_report, ?_, ?_, answer_eq_of_numbers, ?_⟩
  · intro total
    obtain ⟨grounded, counted⟩ := distinct.countNested_eq total
    obtain ⟨cache, ran, once, reached⟩ := exists_run_resolve ⟨target, grounded⟩
    exact ⟨grounded, _, cache, ran, once, reached, counted⟩
  · intro total
    obtain ⟨grounded, -⟩ := distinct.countNested_eq total
    refine ⟨_, ⟨rules.exactNumber, numbers_exactNumber grounded, rfl⟩, ?_⟩
    rintro _ ⟨number, numbers, rfl⟩
    exact number_unique grounded numbers (numbers_exactNumber grounded)
  · intro number total numbers filled word
    obtain ⟨grounded, counted⟩ := distinct.countNested_eq total
    have value (color : rules.Bounded) (path : rules.LeadsTo target color.1) :
        rules.nesting.value color = some (number color.1) := by
      apply value_eq_of_word (numbers.of_leadsTo path) (filled.of_leadsTo path)
      exact (number_le_of_leadsTo numbers filled path).trans_lt word
    refine ⟨?_, value⟩
    rw [counted, value ⟨target, grounded⟩ .refl]
    rfl

end Counting

/-- Rules with a color inside two others, one color twice in another, and a color inside itself away from the
target. -/
def luggage : Text :=
  ("shiny gold bags contain 1 dark red bag, 2 pale blue bags, 3 dark red bags.\n" ++
    "dark red bags contain 2 pale blue bags.\n" ++
    "dim tan bags contain 1 dim tan bag, 1 shiny gold bag.\n").toList

/-- The rules of that text. -/
def shared : Rules :=
  [(target, [(1, "dark red".toList), (2, "pale blue".toList), (3, "dark red".toList)]),
    ("dark red".toList, [(2, "pale blue".toList)]), ("dim tan".toList, [(1, "dim tan".toList), (1, target)])]

theorem countsNested_shared : parse luggage = .ok shared ∧ CountsNested shared ∧ shared.HasTotal ∧
    countNested shared = .ok "14" := by
  have parsed : parse luggage = .ok shared := by decide +kernel
  have counts : CountsNested shared := countsNested_of_parse parsed
  have within {color : Text} (path : shared.LeadsTo target color) :
      color ∈ [target, "dark red".toList, "pale blue".toList] := path.mem_of_closed (by decide +kernel) (by decide)
  let number (color : Text) : Nat := if color = target then 14 else if color = "dark red".toList then 2 else 0
  have each : ∀ color ∈ [target, "dark red".toList, "pale blue".toList],
      number color = shared.bagsInside number color ∧ ∀ content ∈ shared.contents color, 1 ≤ content.1 := by
    decide +kernel
  have numbers : shared.Numbers target number := fun color path => (each color (within path)).1
  have filled : shared.Filled target := fun color path => (each color (within path)).2
  have total : shared.HasTotal := ⟨by decide +kernel, fun color path =>
    not_holdsItself_of_numbers (numbers.of_leadsTo path) (filled.of_leadsTo path)⟩
  have shown : toString (number target) = "14" := by decide +kernel
  exact ⟨parsed, counts, total, shown ▸ (counts.answers total numbers filled (by decide +kernel)).1⟩

end PuzzleCalendar.Baggage
