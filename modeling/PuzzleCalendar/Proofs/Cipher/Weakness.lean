import Mathlib.Data.Nat.Find
import PuzzleCalendar.Proofs.Cipher.Preamble

/-! # The weakness of a transmission

Numbers that make a sum hold its least and its greatest one, so these two make no greater sum and the weakness
is a word. A search for the numbers may still break off before it comes to them: it adds a number to its window
before it takes any off.
-/

namespace PuzzleCalendar.Cipher

/-- The answer is the least and the greatest number together of the first that sum to the target. -/
def Shows (numbers : List Nat) (target answer : Nat) : Prop :=
  ∃ start last least greatest, FirstSum numbers target start last ∧
    (between numbers start (last + 1)).min? = some least ∧
    (between numbers start (last + 1)).max? = some greatest ∧ answer = least + greatest

section Ends

variable {numbers range : List Nat} {target start last least greatest : Nat}

theorem length_between (inside : last < numbers.length) :
    (between numbers start (last + 1)).length = last + 1 - start := by
  rw [between, List.length_drop, List.length_take, Nat.min_eq_left inside]

/-- Two of several numbers make no more than all of them. -/
theorem min?_add_max?_le_sum (several : 2 ≤ range.length) (low : range.min? = some least)
    (high : range.max? = some greatest) : least + greatest ≤ range.sum := by
  have top : greatest ∈ range := List.max?_mem high
  have remain : 0 < (range.erase greatest).length := by
    rw [List.length_erase_of_mem top]
    omega
  obtain ⟨other, among⟩ := List.exists_mem_of_length_pos remain
  have least_le : least ≤ other := (List.min?_eq_some_iff.mp low).2 other (List.mem_of_mem_erase among)
  calc least + greatest
    _ ≤ other + greatest := Nat.add_le_add_right least_le greatest
    _ ≤ (range.erase greatest).sum + greatest := Nat.add_le_add_right (List.le_sum_of_mem among) greatest
    _ = range.sum := by rw [Nat.add_comm, List.sum_erase top]

theorem SumsTo.two_le_length (sums : SumsTo numbers target start last) :
    2 ≤ (between numbers start (last + 1)).length := by
  obtain ⟨ordered, inside, -⟩ := sums
  rw [length_between inside]
  omega

theorem SumsTo.exists_ends (sums : SumsTo numbers target start last) : ∃ least greatest,
    (between numbers start (last + 1)).min? = some least ∧
    (between numbers start (last + 1)).max? = some greatest := by
  have several := sums.two_le_length
  have nonempty : between numbers start (last + 1) ≠ [] := List.ne_nil_of_length_pos (by omega)
  obtain ⟨least, low⟩ := Option.isSome_iff_exists.mp (List.isSome_min?_iff.mpr nonempty)
  obtain ⟨greatest, high⟩ := Option.isSome_iff_exists.mp (List.isSome_max?_iff.mpr nonempty)
  exact ⟨least, greatest, low, high⟩

/-- The least and the greatest of numbers that sum to the target make no more than it. -/
theorem SumsTo.ends_le (sums : SumsTo numbers target start last)
    (low : (between numbers start (last + 1)).min? = some least)
    (high : (between numbers start (last + 1)).max? = some greatest) : least + greatest ≤ target :=
  (min?_add_max?_le_sum sums.two_le_length low high).trans_eq sums.2.2

/-- Where some numbers sum to the target, some of them come first. -/
theorem SumsTo.exists_firstSum (sums : SumsTo numbers target start last) :
    ∃ start last, FirstSum numbers target start last := by
  classical
  have ends : ∃ last start, SumsTo numbers target start last := ⟨last, start, sums⟩
  have begins := Nat.find_spec ends
  exact ⟨Nat.find begins, Nat.find ends, Nat.find_spec begins,
    fun other stop also => Nat.find_min' ends ⟨other, also⟩, fun other also => Nat.find_min' begins also⟩

theorem contiguous?_eq_range (first : FirstSum numbers target start last)
    (words : ∀ stop ≤ last, ¬ Overflows numbers target stop) :
    contiguous? target numbers = some (some (between numbers start (last + 1))) :=
  contiguous?_eq_iff.mpr (.range first words)

/-- The search breaks off when a window on its way to the first numbers is too much. -/
theorem contiguous?_eq_none (first : FirstSum numbers target start last)
    (large : ∃ stop ≤ last, Overflows numbers target stop) : contiguous? target numbers = none := by
  obtain ⟨stop, upTo, overflows⟩ := large
  exact contiguous?_eq_iff.mpr (.overflow overflows fun other also sums =>
    upTo.trans (first.earliest other also sums))

/-- The least and the greatest number of a found range make the weakness, which is a word. -/
theorem weakness_eq_ok (word : target < 2 ^ 64) (sums : SumsTo numbers target start last)
    (low : (between numbers start (last + 1)).min? = some least)
    (high : (between numbers start (last + 1)).max? = some greatest)
    (search : contiguous? target numbers = some (some (between numbers start (last + 1)))) :
    weakness numbers target = .ok (least + greatest) := by
  have ends := sums.ends_le low high
  rw [weakness, search]
  change Outcome.orFault (Number.word64? ((between numbers start (last + 1)).min?.getD 0 +
    (between numbers start (last + 1)).max?.getD 0)) = _
  rw [low, high, Option.getD_some, Option.getD_some, Outcome.orFault_eq_ok_iff]
  exact Number.word64?_eq_some_iff.mpr ⟨rfl, by omega⟩

theorem weakness_eq_report (search : contiguous? target numbers = some none) :
    weakness numbers target = Outcome.report (.noSolution "no qualifying contiguous range found") := by
  rw [weakness, search]
  rfl

theorem weakness_eq_fault (search : contiguous? target numbers = none) :
    weakness numbers target = Outcome.fault := by
  rw [weakness, search]
  rfl

end Ends

section Searches

variable {numbers : List Nat} {preamble target value : Nat}

/-- Numbers and a target of sixty-three bits are searched without leaving the words. -/
theorem contiguous?_cases (small : ∀ number ∈ numbers, number < 2 ^ 63) (low : target < 2 ^ 63) :
    (∃ start last, FirstSum numbers target start last ∧
      contiguous? target numbers = some (some (between numbers start (last + 1)))) ∨
    (∀ start last, ¬ SumsTo numbers target start last) ∧ contiguous? target numbers = some none := by
  have words (stop : Nat) : ¬ Overflows numbers target stop := not_overflows_of_lt small low stop
  by_cases some : ∃ start last, SumsTo numbers target start last
  · obtain ⟨_, _, sums⟩ := some
    obtain ⟨start, last, first⟩ := sums.exists_firstSum
    exact .inl ⟨start, last, first, contiguous?_eq_range first fun stop _ => words stop⟩
  · have nowhere : ∀ start last, ¬ SumsTo numbers target start last := fun start last sums =>
      some ⟨start, last, sums⟩
    exact .inr ⟨nowhere, contiguous?_eq_iff.mpr (.nothing nowhere words)⟩

theorem Shows.unique {answer other : Nat} (one : Shows numbers target answer)
    (two : Shows numbers target other) : answer = other := by
  obtain ⟨start, last, least, greatest, first, low, high, rfl⟩ := one
  obtain ⟨_, _, lower, upper, second, also, too, rfl⟩ := two
  obtain ⟨rfl, rfl⟩ := first.unique second
  obtain rfl := Option.some_inj.mp (low.symm.trans also)
  obtain rfl := Option.some_inj.mp (high.symm.trans too)
  rfl

/-- The weakness is what the first numbers that sum to the target show, or there are none. -/
theorem weakness_cases (small : ∀ number ∈ numbers, number < 2 ^ 63) (low : target < 2 ^ 63) :
    (∃ answer, weakness numbers target = .ok answer ∧ Shows numbers target answer) ∨
    weakness numbers target = Outcome.report (.noSolution "no qualifying contiguous range found") ∧
      ∀ answer, ¬ Shows numbers target answer := by
  rcases contiguous?_cases small low with ⟨start, last, first, search⟩ | ⟨nowhere, search⟩
  · have word : target < 2 ^ 64 := low.trans (by decide)
    obtain ⟨least, greatest, bottom, top⟩ := first.sums.exists_ends
    exact .inl ⟨_, weakness_eq_ok word first.sums bottom top search,
      start, last, least, greatest, first, bottom, top, rfl⟩
  · refine .inr ⟨weakness_eq_report search, ?_⟩
    rintro _ ⟨start, last, _, _, first, _⟩
    exact nowhere start last first.sums

theorem weakness_eq_ok_iff {answer : Nat} (small : ∀ number ∈ numbers, number < 2 ^ 63)
    (low : target < 2 ^ 63) : weakness numbers target = .ok answer ↔ Shows numbers target answer := by
  rcases weakness_cases small low with ⟨other, shown, shows⟩ | ⟨reported, none⟩
  · rw [shown]
    constructor
    · rintro ⟨⟩
      exact shows
    · intro also
      rw [shows.unique also]
  · exact iff_of_false (by simp [reported, Outcome.report]) (none answer)

theorem weakness_ne_fault (small : ∀ number ∈ numbers, number < 2 ^ 63) (low : target < 2 ^ 63) :
    weakness numbers target ≠ Outcome.fault := by
  rcases weakness_cases small low with ⟨_, shown, -⟩ | ⟨reported, -⟩
  · rw [shown]
    exact Outcome.ok_ne_fault
  · rw [reported]
    exact Outcome.report_ne_fault

/-- The search for numbers that sum to the target finds the first ones, wherever there are any. -/
theorem contiguous?_eq_range_iff {range : List Nat} (small : ∀ number ∈ numbers, number < 2 ^ 63)
    (low : target < 2 ^ 63) : contiguous? target numbers = some (some range) ↔
      ∃ start last, FirstSum numbers target start last ∧ range = between numbers start (last + 1) := by
  constructor
  · intro search
    obtain ⟨start, last, first, found⟩ | ⟨_, missed⟩ := contiguous?_cases small low
    · exact ⟨start, last, first, Option.some_inj.mp (Option.some_inj.mp (search.symm.trans found))⟩
    · cases search.symm.trans missed
  · rintro ⟨start, last, first, rfl⟩
    exact contiguous?_eq_range first fun stop _ => not_overflows_of_lt small low stop

theorem exists_contiguous?_iff (small : ∀ number ∈ numbers, number < 2 ^ 63) (low : target < 2 ^ 63) :
    (∃ range, contiguous? target numbers = some (some range)) ↔
      ∃ start last, SumsTo numbers target start last := by
  constructor
  · rintro ⟨range, search⟩
    obtain ⟨start, last, first, -⟩ := (contiguous?_eq_range_iff small low).mp search
    exact ⟨start, last, first.sums⟩
  · rintro ⟨_, _, sums⟩
    obtain ⟨start, last, first⟩ := sums.exists_firstSum
    exact ⟨_, (contiguous?_eq_range_iff small low).mpr ⟨start, last, first, rfl⟩⟩

theorem contiguous?_ne_none (small : ∀ number ∈ numbers, number < 2 ^ 63) (low : target < 2 ^ 63) :
    contiguous? target numbers ≠ none := by
  rw [ne_eq, contiguous?_eq_none_iff]
  rintro ⟨stop, overflows, -⟩
  exact not_overflows_of_lt small low stop overflows

theorem mem_of_firstInvalid? (found : firstInvalid? preamble numbers = some (some value)) :
    value ∈ numbers := by
  induction numbers with
  | nil => cases found
  | cons number rest ih =>
    unfold firstInvalid? at found
    split at found
    · cases found
    · rename_i candidate later ends
      split at found
      · cases found
      · exact List.mem_cons_of_mem number (ih found)
      · obtain rfl := Option.some_inj.mp (Option.some_inj.mp found)
        exact List.mem_of_mem_drop (ends ▸ List.mem_cons_self)

end Searches

section Transmissions

variable {transmission : Transmission} {target value : Nat}

theorem invalid_eq_ok_iff (fresh : transmission.invalid? = none) : transmission.invalid.1 = .ok value ↔
    firstInvalid? transmission.preamble transmission.numbers = some (some value) := by
  rw [Transmission.invalid, fresh]
  rcases firstInvalid? transmission.preamble transmission.numbers with _ | _ | _ <;>
    simp [Outcome.fault, Outcome.report]

/-- The second part looks for the weakness that the invalid number shows. -/
theorem findWeakness_fst (transmission : Transmission) : (findWeakness transmission).1 =
    transmission.invalid.1 >>= fun target => (weakness transmission.numbers target).map toString := by
  have numbers : transmission.invalid.2.numbers = transmission.numbers := by
    unfold Transmission.invalid
    split
    · rfl
    · split <;> rfl
  rw [findWeakness]
  simp only [numbers]
  refine bind_congr fun target => ?_
  cases weakness transmission.numbers target <;> rfl

end Transmissions

section Exact

variable {transmission : Transmission} {value : Nat}

/-- Over numbers of sixty-three bits the first search finds the first number against the rule, or reports that
there is none. -/
theorem invalid_cases (fresh : transmission.invalid? = none)
    (small : ∀ number ∈ transmission.numbers, number < 2 ^ 63) :
    (∃ value, transmission.invalid.1 = .ok value ∧
      FirstBreak transmission.numbers transmission.preamble value) ∨
    transmission.invalid.1 = Outcome.report (.noSolution "every number follows the rule") ∧
      ∀ place value, ¬ BreaksRule transmission.numbers transmission.preamble place value := by
  rcases firstInvalid?_cases transmission.preamble small with ⟨value, search, first⟩ | ⟨search, none⟩
  · exact .inl ⟨value, (invalid_eq_ok_iff fresh).mpr search, first⟩
  · refine .inr ⟨?_, none⟩
    rw [Transmission.invalid, fresh]
    simp only [search]

theorem invalid_eq_ok_iff_firstBreak (fresh : transmission.invalid? = none)
    (small : ∀ number ∈ transmission.numbers, number < 2 ^ 63) : transmission.invalid.1 = .ok value ↔
      FirstBreak transmission.numbers transmission.preamble value := by
  rcases invalid_cases fresh small with ⟨first, found, breaks⟩ | ⟨reported, none⟩
  · rw [found]
    constructor
    · rintro ⟨⟩
      exact breaks
    · intro also
      rw [breaks.unique also]
  · refine iff_of_false (by simp [reported, Outcome.report]) ?_
    rintro ⟨place, breaks, -⟩
    exact none place value breaks

theorem invalid_eq_report_iff (fresh : transmission.invalid? = none)
    (small : ∀ number ∈ transmission.numbers, number < 2 ^ 63) :
    transmission.invalid.1 = Outcome.report (.noSolution "every number follows the rule") ↔
      ∀ place value, ¬ BreaksRule transmission.numbers transmission.preamble place value := by
  rcases invalid_cases fresh small with ⟨value, found, place, breaks, -⟩ | ⟨reported, none⟩
  · exact iff_of_false (by simp [found, Outcome.report]) fun none => none place value breaks
  · exact iff_of_true reported none

theorem invalid_ne_fault (fresh : transmission.invalid? = none)
    (small : ∀ number ∈ transmission.numbers, number < 2 ^ 63) :
    transmission.invalid.1 ≠ Outcome.fault := by
  rcases invalid_cases fresh small with ⟨_, found, -⟩ | ⟨reported, -⟩
  · exact found ▸ Outcome.ok_ne_fault
  · exact reported ▸ Outcome.report_ne_fault

theorem findWeakness_ne_fault (fresh : transmission.invalid? = none)
    (small : ∀ number ∈ transmission.numbers, number < 2 ^ 63) :
    (findWeakness transmission).1 ≠ Outcome.fault := by
  rw [findWeakness_fst]
  refine bind_ne_fault (invalid_ne_fault fresh small) fun target found => ?_
  have listed := mem_of_firstInvalid? ((invalid_eq_ok_iff fresh).mp found)
  rw [ne_eq, map_eq_fault_iff]
  exact weakness_ne_fault small (small target listed)

/-- The published transmission. -/
def published : Transmission where
  numbers := [35, 20, 15, 25, 47, 40, 62, 55, 65, 95, 102, 117, 150, 182, 127, 219, 299, 277, 309, 576]
  preamble := 5
  invalid? := none

end Exact

section Words

variable {text : Text} {transmission : Transmission} {target : Nat}

theorem of_parse_eq_ok (parsed : parse text = .ok transmission) : transmission.invalid? = none ∧
    ∀ number ∈ transmission.numbers, number < 2 ^ 64 := by
  obtain ⟨numbers, read, parsed⟩ := bind_eq_ok_iff.mp (Outcome.ofExcept_eq_ok_iff.mp parsed)
  split at parsed
  · cases parsed
  · cases parsed
    refine ⟨rfl, fun number listed => ?_⟩
    obtain ⟨line, -, literal⟩ := Input.exists_line_of_mem_collect read listed
    have bound := Number.readUnsigned_le (mapError_eq_ok_iff.mp literal)
    omega

/-- Of a text that can be read, let some neighbouring numbers sum to the number against the rule. The weakness
that the first of them show is the answer as long as no window together with its next number is too much up
to their end; otherwise there is none. -/
theorem findWeakness_of_parse (parsed : parse text = .ok transmission)
    (found : transmission.invalid.1 = .ok target)
    (qualifies : ∃ start last, SumsTo transmission.numbers target start last) :
    ∃ start last least greatest, FirstSum transmission.numbers target start last ∧
      (between transmission.numbers start (last + 1)).min? = some least ∧
      (between transmission.numbers start (last + 1)).max? = some greatest ∧
      ((∀ stop ≤ last, ¬ Overflows transmission.numbers target stop) →
        (findWeakness transmission).1 = .ok (toString (least + greatest))) ∧
      ((∃ stop ≤ last, Overflows transmission.numbers target stop) →
        (findWeakness transmission).1 = Outcome.fault) := by
  obtain ⟨fresh, words⟩ := of_parse_eq_ok parsed
  have word : target < 2 ^ 64 := words target (mem_of_firstInvalid? ((invalid_eq_ok_iff fresh).mp found))
  have shows : (findWeakness transmission).1 =
      (weakness transmission.numbers target).map toString := by
    rw [findWeakness_fst, found]
    rfl
  obtain ⟨_, _, sums⟩ := qualifies
  obtain ⟨start, last, first⟩ := sums.exists_firstSum
  obtain ⟨least, greatest, low, high⟩ := first.sums.exists_ends
  refine ⟨start, last, least, greatest, first, low, high, fun fine => ?_, fun large => ?_⟩
  · rw [shows, weakness_eq_ok word first.sums low high (contiguous?_eq_range first fine)]
    rfl
  · rw [shows, weakness_eq_fault (contiguous?_eq_none first large)]
    rfl

/-- A text with a number on each line: the preamble, 1000, and more numbers. -/
def listing (more : List Nat) : Text :=
  ("\n".intercalate ((List.range' 1 25 ++ 1000 :: more).map toString)).toList

theorem findWeakness_of_parse_listing : ∃ transmission, parse (listing [600, 400]) = .ok transmission ∧
    transmission.invalid.1 = .ok 1000 ∧
    (∃ start last, SumsTo transmission.numbers 1000 start last) ∧
    ∃ answer, (findWeakness transmission).1 = .ok answer := by
  let transmission : Transmission := ⟨List.range' 1 25 ++ [1000, 600, 400], 25, none⟩
  have parsed : parse (listing [600, 400]) = .ok transmission := by decide +kernel
  have found : transmission.invalid.1 = .ok 1000 := by decide +kernel
  have qualifies : ∃ start last, SumsTo transmission.numbers 1000 start last :=
    ⟨26, 27, by decide, by decide, rfl⟩
  have small : ∀ number ∈ transmission.numbers, number < 2 ^ 63 := by decide
  obtain ⟨_, _, least, greatest, -, -, -, answers, -⟩ := findWeakness_of_parse parsed found qualifies
  exact ⟨transmission, parsed, found, qualifies, toString (least + greatest),
    answers fun stop _ => not_overflows_of_lt small (by decide) stop⟩

/-- The last two numbers sum to the one against the rule. The search for them breaks off before, where the greatest
word comes to the number that is all of the window. -/
theorem findWeakness_faults_listing : ∃ transmission,
    parse (listing [18446744073709551615, 600, 400]) = .ok transmission ∧
    transmission.invalid.1 = .ok 1000 ∧ SumsTo transmission.numbers 1000 27 28 ∧
    (findWeakness transmission).1 = Outcome.fault := by
  refine ⟨⟨List.range' 1 25 ++ [1000, 18446744073709551615, 600, 400], 25, none⟩, ?_, ?_, ?_, ?_⟩
  · decide +kernel
  · decide +kernel
  · exact ⟨by decide, by decide, rfl⟩
  · decide +kernel

end Words

end PuzzleCalendar.Cipher
