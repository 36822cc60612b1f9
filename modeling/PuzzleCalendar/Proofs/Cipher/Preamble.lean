import PuzzleCalendar.Proofs.Cipher.Windows

/-! # The first number against the rule

The search for an invalid number looks at each number after the preamble and at the numbers right before
it. Two of them are added only when they differ, so it finds the first number that is not the sum of two
different ones, when no sum of two is more than a word.
-/

namespace PuzzleCalendar.Cipher

/-- Two different numbers of a list have a sum. -/
def PairSums (numbers : List Nat) (sum : Nat) : Prop :=
  ∃ one ∈ numbers, ∃ two ∈ numbers, one ≠ two ∧ one + two = sum

instance (numbers : List Nat) (sum : Nat) : Decidable (PairSums numbers sum) :=
  inferInstanceAs (Decidable (∃ one ∈ numbers, ∃ two ∈ numbers, _))

/-- The number at a place after the preamble is not the sum of two different ones right before it. -/
structure BreaksRule (numbers : List Nat) (preamble place number : Nat) : Prop where
  late : preamble ≤ place
  listed : numbers[place]? = some number
  unpaired : ¬ PairSums (between numbers (place - preamble) place) number

/-- A number is the first one that breaks the rule. -/
def FirstBreak (numbers : List Nat) (preamble number : Nat) : Prop :=
  ∃ place, BreaksRule numbers preamble place number ∧
    ∀ earlier < place, ∀ other, ¬ BreaksRule numbers preamble earlier other

section Pairs

variable {numbers : List Nat} {first sum : Nat}

theorem pairsWith?_eq (low : first < 2 ^ 63) (small : ∀ number ∈ numbers, number < 2 ^ 63) :
    pairsWith? first sum numbers =
      some (decide (∃ second ∈ numbers, first ≠ second ∧ first + second = sum)) := by
  induction numbers with
  | nil => simp [pairsWith?]
  | cons second rest ih =>
    obtain ⟨word, small⟩ := List.forall_mem_cons.mp small
    rw [pairsWith?, ih small]
    by_cases same : first = second
    · rw [if_pos same]
      simp [same]
    · have held : Number.word64? (first + second) = some (first + second) :=
        Number.word64?_eq_some_iff.mpr ⟨rfl, by omega⟩
      rw [if_neg same, held]
      by_cases found : first + second = sum <;> simp [same, found]

theorem pairSums_cons_iff {rest : List Nat} : PairSums (first :: rest) sum ↔
    (∃ second ∈ rest, first ≠ second ∧ first + second = sum) ∨ PairSums rest sum := by
  constructor
  · rintro ⟨one, oneMember, two, twoMember, apart, total⟩
    rcases List.mem_cons.mp oneMember with rfl | oneLater
    · rcases List.mem_cons.mp twoMember with rfl | twoLater
      · contradiction
      · exact .inl ⟨two, twoLater, apart, total⟩
    · rcases List.mem_cons.mp twoMember with rfl | twoLater
      · exact .inl ⟨one, oneLater, apart.symm, by omega⟩
      · exact .inr ⟨one, oneLater, two, twoLater, apart, total⟩
  · rintro (⟨second, later, apart, total⟩ | ⟨one, oneLater, two, twoLater, apart, total⟩)
    · exact ⟨first, List.mem_cons_self, second, List.mem_cons_of_mem _ later, apart, total⟩
    · exact ⟨one, List.mem_cons_of_mem _ oneLater, two, List.mem_cons_of_mem _ twoLater, apart, total⟩

theorem isPairSum?_eq (small : ∀ number ∈ numbers, number < 2 ^ 63) :
    isPairSum? sum numbers = some (decide (PairSums numbers sum)) := by
  induction numbers with
  | nil => simp [isPairSum?, PairSums]
  | cons first rest ih =>
    obtain ⟨low, small⟩ := List.forall_mem_cons.mp small
    rw [isPairSum?, pairsWith?_eq low small, ih small]
    simp only [pairSums_cons_iff]
    by_cases found : ∃ second ∈ rest, first ≠ second ∧ first + second = sum <;> simp [found]

end Pairs

section Places

variable {numbers rest : List Nat} {preamble place number value : Nat}

theorem between_cons_succ (number : Nat) (rest : List Nat) (start stop : Nat) :
    between (number :: rest) (start + 1) (stop + 1) = between rest start stop := rfl

/-- The first number moves all later ones by a place. -/
theorem breaksRule_succ_iff (late : preamble ≤ place) :
    BreaksRule (number :: rest) preamble (place + 1) value ↔ BreaksRule rest preamble place value := by
  have window : between (number :: rest) (place + 1 - preamble) (place + 1) =
      between rest (place - preamble) place := by
    rw [Nat.succ_sub late, between_cons_succ]
  constructor
  · rintro ⟨-, listed, unpaired⟩
    exact ⟨late, listed, window ▸ unpaired⟩
  · rintro ⟨-, listed, unpaired⟩
    exact ⟨Nat.le_succ_of_le late, listed, window ▸ unpaired⟩

theorem breaksRule_preamble_iff : BreaksRule numbers preamble preamble value ↔
    numbers[preamble]? = some value ∧ ¬ PairSums (numbers.take preamble) value := by
  have window : between numbers (preamble - preamble) preamble = numbers.take preamble := by
    rw [Nat.sub_self, between, List.drop_zero]
  constructor
  · rintro ⟨-, listed, unpaired⟩
    exact ⟨listed, window ▸ unpaired⟩
  · rintro ⟨listed, unpaired⟩
    exact ⟨le_rfl, listed, window ▸ unpaired⟩

/-- Where the number right after the preamble keeps the rule, one that breaks it is among the rest. -/
theorem BreaksRule.later {candidate : Nat} (breaks : BreaksRule (number :: rest) preamble place value)
    (listed : (number :: rest)[preamble]? = some candidate)
    (paired : PairSums ((number :: rest).take preamble) candidate) :
    ∃ earlier, place = earlier + 1 ∧ BreaksRule rest preamble earlier value := by
  have differs : preamble ≠ place := by
    rintro rfl
    obtain ⟨also, unpaired⟩ := breaksRule_preamble_iff.mp breaks
    obtain rfl := Option.some_inj.mp (listed.symm.trans also)
    exact unpaired paired
  have beyond := Nat.lt_of_le_of_ne breaks.late differs
  obtain ⟨earlier, rfl⟩ := Nat.exists_eq_add_of_le' (Nat.one_le_of_lt beyond)
  exact ⟨earlier, rfl, (breaksRule_succ_iff (Nat.le_of_lt_succ beyond)).mp breaks⟩

/-- Where the number right after the preamble breaks the rule, it is the first one. -/
theorem firstBreak_preamble (listed : numbers[preamble]? = some value)
    (unpaired : ¬ PairSums (numbers.take preamble) value) : FirstBreak numbers preamble value := by
  refine ⟨preamble, breaksRule_preamble_iff.mpr ⟨listed, unpaired⟩, fun earlier less other also => ?_⟩
  exact absurd also.late (Nat.not_le.mpr less)

theorem FirstBreak.unique {other : Nat} (one : FirstBreak numbers preamble value)
    (two : FirstBreak numbers preamble other) : value = other := by
  obtain ⟨place, breaks, before⟩ := one
  obtain ⟨there, also, earlier⟩ := two
  obtain less | rfl | more := Nat.lt_trichotomy place there
  · exact absurd breaks (earlier place less value)
  · exact Option.some_inj.mp (breaks.listed.symm.trans also.listed)
  · exact absurd also (before there more other)

/-- The search finds the first number that breaks the rule, or that there is none. -/
theorem firstInvalid?_cases (preamble : Nat) (small : ∀ number ∈ numbers, number < 2 ^ 63) :
    (∃ value, firstInvalid? preamble numbers = some (some value) ∧ FirstBreak numbers preamble value) ∨
    firstInvalid? preamble numbers = some none ∧
      ∀ place value, ¬ BreaksRule numbers preamble place value := by
  induction numbers with
  | nil => exact .inr ⟨rfl, fun place value breaks => by simpa using breaks.listed⟩
  | cons number rest ih =>
    unfold firstInvalid?
    split
    · rename_i short
      refine .inr ⟨rfl, fun place value breaks => ?_⟩
      have inside := (List.getElem?_eq_some_iff.mp breaks.listed).1
      have beyond := List.drop_eq_nil_iff.mp short
      have late := breaks.late
      omega
    · rename_i candidate _ ends
      have listed : (number :: rest)[preamble]? = some candidate := by
        rw [← List.head?_drop, ends, List.head?_cons]
      have before : ∀ other ∈ (number :: rest).take preamble, other < 2 ^ 63 := fun other member =>
        small other (List.mem_of_mem_take member)
      rw [isPairSum?_eq before]
      by_cases paired : PairSums ((number :: rest).take preamble) candidate
      · simp only [paired, decide_true]
        rcases ih (List.forall_mem_cons.mp small).2 with ⟨found, search, place, breaks, none⟩ | ⟨search, none⟩
        · refine .inl ⟨found, search, place + 1, (breaksRule_succ_iff breaks.late).mpr breaks, ?_⟩
          intro earlier less other also
          obtain ⟨place, rfl, within⟩ := also.later listed paired
          exact none place (Nat.lt_of_succ_lt_succ less) other within
        · refine .inr ⟨search, fun place value also => ?_⟩
          obtain ⟨earlier, rfl, within⟩ := also.later listed paired
          exact none earlier value within
      · simp only [paired, decide_false]
        exact .inl ⟨candidate, rfl, firstBreak_preamble listed paired⟩

end Places

end PuzzleCalendar.Cipher
