import PuzzleCalendar.Catalogue
import PuzzleCalendar.Proofs.Parsing.Bounds

/-! # When a reader of the catalogue faults

Every reader gives data or a report, except for three of them at the ends of their integers: the device
above the greatest adapter, the negation of the least integer, and the total of a block of calories. What
they report about a line or a block before comes first.
-/

namespace PuzzleCalendar

namespace Adapters

theorem le_of_mem_neighbours {chain : List Nat} (rising : chain.Pairwise (· ≤ ·)) {pair : Nat × Nat}
    (listed : pair ∈ neighbours chain) : pair.1 ≤ pair.2 := by
  induction chain with
  | nil => simp [neighbours] at listed
  | cons low rest ih =>
    obtain ⟨first, later⟩ := List.pairwise_cons.mp rising
    cases rest with
    | nil => simp [neighbours] at listed
    | cons high rest =>
      obtain rfl | listed := List.mem_cons.mp listed
      · exact first high (.head _)
      · exact ih later listed

/-- The greatest adapter stands last when they rise. -/
theorem exists_greatest (adapters : List Nat) : ∃ lower greatest,
    (0 :: adapters).mergeSort (· ≤ ·) = lower ++ [greatest] ∧
      (lower ++ [greatest]).Pairwise (· ≤ ·) ∧ (greatest = 0 ∨ greatest ∈ adapters) ∧
      ∀ adapter ∈ adapters, adapter ≤ greatest := by
  have rising := pairwise_mergeSort (0 :: adapters)
  have members (adapter : Nat) : adapter ∈ (0 :: adapters).mergeSort (· ≤ ·) ↔
      adapter = 0 ∨ adapter ∈ adapters := by
    rw [List.mem_mergeSort, List.mem_cons]
  obtain none | ⟨lower, greatest, whole⟩ := ((0 :: adapters).mergeSort (· ≤ ·)).eq_nil_or_concat
  · simpa [none] using members 0
  · rw [List.concat_eq_append] at whole
    rw [whole] at rising members
    refine ⟨lower, greatest, whole, rising, (members greatest).mp (by simp), fun adapter listed => ?_⟩
    obtain below | same := List.mem_append.mp ((members adapter).mpr (.inr listed))
    · exact (List.pairwise_append.mp rising).2.2 adapter below greatest (by simp)
    · exact (List.mem_singleton.mp same).le

/-- A chain faults when the device above its greatest adapter is no word. No step of it goes down. -/
theorem chainOf_eq_fault_iff (adapters : List Nat) : chainOf adapters = Outcome.fault ↔
    ∃ adapter ∈ adapters, 18446744073709551616 ≤ adapter + 3 := by
  obtain ⟨lower, greatest, whole, rising, member, most⟩ := exists_greatest adapters
  have last : (lower ++ [greatest]).getLast?.getD 0 = greatest := by simp
  simp only [chainOf, whole, last]
  cases held : Number.word64? (greatest + 3) with
  | none =>
    refine iff_of_true rfl ⟨greatest, ?_, Number.word64?_eq_none_iff.mp held⟩
    have large := Number.word64?_eq_none_iff.mp held
    exact member.resolve_left (by omega)
  | some device =>
    obtain ⟨rfl, fits⟩ := Number.word64?_eq_some_iff.mp held
    have up : (lower ++ [greatest] ++ [greatest + 3]).Pairwise (· ≤ ·) := by
      refine List.pairwise_append.mpr ⟨rising, List.pairwise_singleton _ _, fun low listed high top => ?_⟩
      obtain rfl := List.mem_singleton.mp top
      obtain below | same := List.mem_append.mp listed
      · have step := (List.pairwise_append.mp rising).2.2 low below greatest (by simp)
        omega
      · have equal := List.mem_singleton.mp same
        omega
    refine iff_of_false (bind_ne_fault Outcome.ok_ne_fault fun device top => ?_) ?_
    · obtain rfl : greatest + 3 = device := Except.ok.inj top
      rw [findUnjoined?_eq_some fun pair => le_of_mem_neighbours up]
      refine bind_ne_fault Outcome.ok_ne_fault fun gap? _ => ?_
      split
      · exact Outcome.report_ne_fault
      · exact Outcome.ok_ne_fault
    · rintro ⟨adapter, listed, large⟩
      have := most adapter listed
      omega

/-- Every line is an adapter, and three more than one of them is no word. -/
def Overflows (text : Text) : Prop :=
  ∃ adapters, readAdapters text = .ok adapters ∧
    ∃ adapter ∈ adapters, 18446744073709551616 ≤ adapter + 3

theorem parse_eq_fault_iff (text : Text) : parse text = Outcome.fault ↔ Overflows text := by
  simp only [parse, bind_eq_fault_iff, Outcome.ofExcept_ne_fault, false_or, Outcome.ofExcept_eq_ok_iff,
    chainOf_eq_fault_iff, Overflows]

end Adapters

namespace Navigation

/-- A line asks for the negation of the least integer. -/
def NegatesLeast (line : Text) : Prop :=
  ∃ code ∈ ['S', 'W', 'R'], ∃ value, line = code :: value ∧
    Number.readSigned 64 value = .ok (-9223372036854775808)

theorem negated_eq_fault_iff {text : Text} {value : Int} (read : Number.readSigned 64 text = .ok value) :
    negated value = Outcome.fault ↔ value = -9223372036854775808 := by
  have within := Number.readSigned_bounds read
  rw [negated, Outcome.orFault_eq_fault_iff, Number.int64?]
  simp
  omega

theorem readTurn_ne_fault (degrees : Int) : readTurn degrees ≠ Outcome.fault := by
  unfold readTurn
  split
  · exact Outcome.ok_ne_fault
  · exact Outcome.report_ne_fault

/-- An action faults only in a negation. -/
theorem ofCode_eq_fault_iff {code : Char} {text : Text} {value : Int}
    (read : Number.readSigned 64 text = .ok value) :
    Action.ofCode code value = Outcome.fault ↔
      code ∈ ['S', 'W', 'R'] ∧ value = -9223372036854775808 := by
  rw [← negated_eq_fault_iff read]
  have passes {build : Int → Action} :
      build <$> negated value = Outcome.fault ↔ negated value = Outcome.fault := by
    cases negated value <;> simp [Outcome.fault]
  unfold Action.ofCode
  split
  · simp [Outcome.ok_ne_fault]
  · simpa using passes
  · simp [Outcome.ok_ne_fault]
  · simpa using passes
  · simp [readTurn_ne_fault]
  · simp [bind_eq_fault_iff, readTurn_ne_fault]
  · simp [Outcome.ok_ne_fault]
  · simp_all [Outcome.report_ne_fault]

theorem read_eq_fault_iff (line : Text) : Action.read line = Outcome.fault ↔ NegatesLeast line := by
  cases line with
  | nil => exact iff_of_false Outcome.report_ne_fault (by rintro ⟨_, _, _, same, _⟩; cases same)
  | cons code value =>
    have least_iff : NegatesLeast (code :: value) ↔ code ∈ ['S', 'W', 'R'] ∧
        Number.readSigned 64 value = .ok (-9223372036854775808) := by
      constructor
      · rintro ⟨_, letter, _, same, read⟩
        obtain ⟨rfl, rfl⟩ := List.cons_eq_cons.mp same
        exact ⟨letter, read⟩
      · exact fun ⟨letter, read⟩ => ⟨code, letter, value, rfl, read⟩
    rw [least_iff, Action.read]
    split
    · split
      case h_1 read => rw [ofCode_eq_fault_iff read, read, Except.ok.injEq]
      case h_2 read => exact iff_of_false Outcome.report_ne_fault (by simp [read])
    case isFalse wide =>
      refine iff_of_false Outcome.report_ne_fault fun least => wide ?_
      obtain rfl | rfl | rfl : code = 'S' ∨ code = 'W' ∨ code = 'R' := by simpa using least.1
      all_goals rfl

/-- A line negates the least integer, and every line before it is an action. -/
def Overflows (text : Text) : Prop :=
  ∃ before line after, Input.recordLines text = before ++ line :: after ∧
    (∀ earlier ∈ before, ∃ action, Action.read earlier = .ok action) ∧ NegatesLeast line

theorem parse_eq_fault_iff (text : Text) : parse text = Outcome.fault ↔ Overflows text := by
  rw [parse, Input.readFallibleLines_eq_fault_iff]
  simp only [FaultsIn, Outcome.mapReport_eq_fault_iff, Outcome.mapReport_eq_ok_iff, read_eq_fault_iff,
    Overflows]

end Navigation

namespace Calories

/-- The total of one block. -/
def readTotal (block : List Text) : Outcome ParseError Nat := do
  Outcome.orFault (Number.sum64? (← Outcome.ofExcept (readElf block)))

theorem readTotals_eq_mapM (blocks : List (List Text)) : readTotals blocks = blocks.mapM readTotal := by
  induction blocks with
  | nil => rfl
  | cons block blocks ih => rw [readTotals, List.mapM_cons, ih, readTotal, bind_assoc]

theorem readTotal_eq_fault_iff (block : List Text) : readTotal block = Outcome.fault ↔
    ∃ calories, readElf block = .ok calories ∧ 18446744073709551616 ≤ Number.total calories := by
  simp only [readTotal, bind_eq_fault_iff, Outcome.ofExcept_ne_fault, false_or, Outcome.ofExcept_eq_ok_iff,
    Outcome.orFault_eq_fault_iff, Number.sum64?_eq_none_iff]

theorem exists_readTotal_iff (block : List Text) : (∃ total, readTotal block = .ok total) ↔
    ∃ calories, readElf block = .ok calories ∧ Number.total calories < 18446744073709551616 := by
  have held_iff (calories : List Nat) : (∃ total, Number.sum64? calories = some total) ↔
      Number.total calories < 18446744073709551616 := by
    rw [← Option.ne_none_iff_exists', ne_eq, Number.sum64?_eq_none_iff, Nat.not_le]
  simp only [readTotal, bind_eq_ok_iff, Outcome.ofExcept_eq_ok_iff, Outcome.orFault_eq_ok_iff, ← held_iff]
  exact ⟨fun ⟨total, calories, read, held⟩ => ⟨calories, read, total, held⟩,
    fun ⟨calories, read, total, held⟩ => ⟨total, calories, read, held⟩⟩

/-- The total of a block is no word, and every block before it has a total that is one. -/
def Overflows (text : Text) : Prop :=
  ∃ before block after, Input.blocks text = before ++ block :: after ∧
    (∀ earlier ∈ before, ∃ calories, readElf earlier = .ok calories ∧
      Number.total calories < 18446744073709551616) ∧
    ∃ calories, readElf block = .ok calories ∧ 18446744073709551616 ≤ Number.total calories

theorem parse_eq_fault_iff (text : Text) : parse text = Outcome.fault ↔ Overflows text := by
  have sorts (totals : List Nat) :
      (pure (totals.mergeSort (· ≥ ·)) : Outcome ParseError (List Nat)) ≠ Outcome.fault := Outcome.ok_ne_fault
  simp only [parse, bind_eq_fault_iff, sorts, and_false, exists_false, or_false, readTotals_eq_mapM,
    mapM_eq_fault_iff, FaultsIn, exists_readTotal_iff, readTotal_eq_fault_iff, Overflows]

end Calories

/-- An input with which the reader of a puzzle leaves its integers. -/
def Plugin.Overflows (plugin : Plugin) (text : Text) : Prop :=
  plugin.date = ⟨2020, 10⟩ ∧ Adapters.Overflows text ∨
    plugin.date = ⟨2020, 12⟩ ∧ Navigation.Overflows text ∨
    plugin.date = ⟨2022, 1⟩ ∧ Calories.Overflows text

namespace Catalogue

variable {plugin : Plugin}

theorem parse_eq_fault_iff (listed : plugin ∈ all) (text : Text) :
    plugin.puzzle.parse text = Outcome.fault ↔ plugin.Overflows text := by
  have answers {date : Date} {puzzle : Puzzle} {tags : List String}
      (other : date ∉ [⟨2020, 10⟩, ⟨2020, 12⟩, ⟨2022, 1⟩])
      (never : puzzle.parse text ≠ Outcome.fault) :
      puzzle.parse text = Outcome.fault ↔ Plugin.Overflows ⟨date, puzzle, tags⟩ text := by
    simp only [List.mem_cons, List.not_mem_nil, or_false, not_or] at other
    simp [Plugin.Overflows, other, never]
  have adapters : _ ↔ Plugin.Overflows ⟨⟨2020, 10⟩, Adapters.puzzle, ["memo"]⟩ text :=
    (Adapters.parse_eq_fault_iff text).trans (by simp [Plugin.Overflows])
  have navigation : _ ↔ Plugin.Overflows ⟨⟨2020, 12⟩, Navigation.puzzle, ["navigation"]⟩ text :=
    (Navigation.parse_eq_fault_iff text).trans (by simp [Plugin.Overflows])
  have blocks : _ ↔ Plugin.Overflows calories text :=
    (Calories.parse_eq_fault_iff text).trans (by simp [Plugin.Overflows, calories])
  suffices each : all.Forall fun plugin =>
      plugin.puzzle.parse text = Outcome.fault ↔ plugin.Overflows text from
    List.forall_iff_forall_mem.mp each plugin listed
  exact ⟨
    -- Expenses to BoardingPass
    answers (by decide) Outcome.ofExcept_ne_fault, answers (by decide) Outcome.ofExcept_ne_fault,
    answers (by decide) Outcome.ofExcept_ne_fault, answers (by decide) Outcome.ofExcept_ne_fault,
    answers (by decide) Outcome.ofExcept_ne_fault,
    answers (by decide) (Questionnaire.parse_ne_fault text),
    -- Baggage to Cipher
    answers (by decide) Outcome.ofExcept_ne_fault, answers (by decide) Outcome.ofExcept_ne_fault,
    answers (by decide) Outcome.ofExcept_ne_fault,
    adapters, answers (by decide) (Seating.parse_ne_fault text), navigation,
    -- Shuttle to Cubes
    answers (by decide) Outcome.ofExcept_ne_fault, answers (by decide) Outcome.ofExcept_ne_fault,
    answers (by decide) Outcome.ofExcept_ne_fault, answers (by decide) Outcome.ofExcept_ne_fault,
    answers (by decide) Outcome.ofExcept_ne_fault,
    answers (by decide) (Arithmetic.parse_ne_fault text),
    answers (by decide) Outcome.ofExcept_ne_fault,
    answers (by decide) (Jigsaw.parse_ne_fault text),
    -- Allergens to Depths
    answers (by decide) Outcome.ofExcept_ne_fault, answers (by decide) Outcome.ofExcept_ne_fault,
    answers (by decide) Outcome.ofExcept_ne_fault, answers (by decide) Outcome.ofExcept_ne_fault,
    answers (by decide) Outcome.ofExcept_ne_fault, blocks⟩

/-- A reader of the catalogue gives data or a report on every input, except for three readers at the ends of
their integers. -/
theorem parse_total_iff (listed : plugin ∈ all) (text : Text) :
    (∃ result, plugin.puzzle.parse text = Outcome.ofExcept result) ↔ ¬ plugin.Overflows text := by
  rw [← parse_eq_fault_iff listed text, Outcome.exists_eq_ofExcept_iff]

theorem parse_greatestAdapter :
    ⟨⟨2020, 10⟩, Adapters.puzzle, ["memo"]⟩ ∈ all ∧
      ∃ result, Adapters.puzzle.parse "18446744073709551612".toList = Outcome.ofExcept result := by
  have listed : ⟨⟨2020, 10⟩, Adapters.puzzle, ["memo"]⟩ ∈ all := by simp [all, year2020]
  have fits : ¬ Adapters.Overflows "18446744073709551612".toList := by
    have one : Adapters.readAdapters "18446744073709551612".toList = .ok [18446744073709551612] := by
      decide +kernel
    rintro ⟨adapters, read, large⟩
    obtain rfl : [18446744073709551612] = adapters := Except.ok.inj (one.symm.trans read)
    simp at large
  exact ⟨listed, (parse_total_iff listed _).mpr (by simpa [Plugin.Overflows] using fits)⟩

/-- An adapter, a value and a total at the ends of the integers. -/
theorem parse_overflows :
    Adapters.parse "18446744073709551615".toList = Outcome.fault ∧
      Navigation.parse "S-9223372036854775808".toList = Outcome.fault ∧
      Calories.parse "18446744073709551615\n1".toList = Outcome.fault := by
  refine ⟨(Adapters.parse_eq_fault_iff _).mpr ⟨[18446744073709551615], ?_, by simp⟩,
    (Navigation.parse_eq_fault_iff _).mpr ⟨[], "S-9223372036854775808".toList, [], ?_, by simp,
      'S', by decide, "-9223372036854775808".toList, rfl, ?_⟩,
    (Calories.parse_eq_fault_iff _).mpr ⟨[], ["18446744073709551615".toList, ['1']], [], ?_, by simp,
      [18446744073709551615, 1], ?_, by simp⟩⟩
  all_goals decide +kernel

end Catalogue

end PuzzleCalendar
