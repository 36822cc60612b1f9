import Mathlib.Algebra.Order.BigOperators.Group.List
import Mathlib.Algebra.Order.Ring.Nat
import Mathlib.Data.List.Sort
import PuzzleCalendar.Puzzles.Expenses

/-! # Closing in on a sum

In a rising report, an end whose sum with the other end is too small or too large has no partner between the
ends. So no pair with the wanted sum is ever given up, and the search meets one when there is one. Entries of
32 bits keep all sums within words, and the wanted sum of the parts keeps their products there.
-/

namespace PuzzleCalendar.Expenses

/-- Entries of 32 bits in rising order. -/
structure Rising (entries : List Nat) : Prop where
  ordered : entries.Pairwise (· ≤ ·)
  held : ∀ entry ∈ entries, entry < 2 ^ 32

/-- Entries at two different places of a report have a sum. -/
def PairAt (entries : List Nat) (sum : Nat) (pair : Nat × Nat) : Prop :=
  ∃ one two : ℕ, one ≠ two ∧ entries[one]? = some pair.1 ∧ entries[two]? = some pair.2 ∧ pair.1 + pair.2 = sum

/-- Entries at three different places of a report have a sum. -/
def TripleAt (entries : List Nat) (sum : Nat) (triple : Nat × Nat × Nat) : Prop :=
  ∃ one two three : ℕ, one ≠ two ∧ one ≠ three ∧ two ≠ three ∧
    entries[one]? = some triple.1 ∧ entries[two]? = some triple.2.1 ∧ entries[three]? = some triple.2.2 ∧
    triple.1 + triple.2.1 + triple.2.2 = sum

/-- A search ends, it finds something exactly when something is wanted, and what it finds is wanted. -/
structure Decides {α : Type} (search : Option (Option α)) (wanted : α → Prop) : Prop where
  ends : search ≠ none
  found_iff : (∃ found, search = some (some found)) ↔ ∃ choice, wanted choice
  wanted_of_found {found : α} : search = some (some found) → wanted found

/-- A part answers with the product of a wanted choice, or it reports that there is none. -/
def Answers {α : Type} (part : Outcome SolveError String) (wanted : α → Prop) (product : α → Nat)
    (reason : String) : Prop :=
  (∃ choice, wanted choice ∧ part = .ok (toString (product choice))) ∨
    (∀ choice, ¬ wanted choice) ∧ part = Outcome.report (.noSolution reason)

namespace Decides

variable {α : Type} {search : Option (Option α)} {wanted : α → Prop}

theorem found {choice : α} (fits : wanted choice) : Decides (some (some choice)) wanted where
  ends := nofun
  found_iff := iff_of_true ⟨choice, rfl⟩ ⟨choice, fits⟩
  wanted_of_found same := by
    cases same
    exact fits

theorem nothing (none : ∀ choice, ¬ wanted choice) : Decides (some Option.none) wanted where
  ends := nofun
  found_iff := iff_of_false nofun fun ⟨choice, fits⟩ => none choice fits
  wanted_of_found := nofun

/-- A search among fewer choices serves for more of them when it leaves out none that matters. -/
theorem widen {wider : α → Prop} (decides : Decides search wanted) (sound : ∀ choice, wanted choice → wider choice)
    (complete : ∀ choice, wider choice → ∃ other, wanted other) : Decides search wider where
  ends := decides.ends
  found_iff := by
    rw [decides.found_iff]
    exact ⟨fun ⟨choice, fits⟩ => ⟨choice, sound choice fits⟩, fun ⟨choice, fits⟩ => complete choice fits⟩
  wanted_of_found same := sound _ (decides.wanted_of_found same)

theorem cases (decides : Decides search wanted) :
    (∃ choice, search = some (some choice) ∧ wanted choice) ∨
      search = some none ∧ ∀ choice, ¬ wanted choice := by
  rcases search with _ | _ | choice
  · exact absurd rfl decides.ends
  · refine .inr ⟨rfl, fun choice fits => ?_⟩
    obtain ⟨_, same⟩ := decides.found_iff.mpr ⟨choice, fits⟩
    cases same
  · exact .inl ⟨choice, rfl, decides.wanted_of_found rfl⟩

end Decides

section Pairs

variable {entries : List Nat} {sum low high : Nat} {pair : Nat × Nat}

/-- A pair with the sum lies between two places, in their order. -/
def PairBetween (entries : List Nat) (sum low high : Nat) (pair : Nat × Nat) : Prop :=
  ∃ one two : ℕ, low ≤ one ∧ one < two ∧ two ≤ high ∧
    entries[one]? = some pair.1 ∧ entries[two]? = some pair.2 ∧ pair.1 + pair.2 = sum

theorem Rising.le {one two first second : Nat} (rising : Rising entries) (order : one ≤ two)
    (atOne : entries[one]? = some first) (atTwo : entries[two]? = some second) : first ≤ second := by
  obtain ⟨_, rfl⟩ := List.getElem?_eq_some_iff.mp atOne
  obtain ⟨_, rfl⟩ := List.getElem?_eq_some_iff.mp atTwo
  obtain less | rfl := Nat.lt_or_eq_of_le order
  · exact List.pairwise_iff_getElem.mp rising.ordered one two _ _ less
  · exact Nat.le_refl _

/-- Where the ends sum to too little, the lower one has no partner. -/
theorem PairBetween.of_lt {lower upper : Nat} (rising : Rising entries) (atLow : entries[low]? = some lower)
    (atHigh : entries[high]? = some upper) (small : lower + upper < sum)
    (between : PairBetween entries sum low high pair) : PairBetween entries sum (low + 1) high pair := by
  obtain ⟨one, two, above, order, below, first, second, total⟩ := between
  have partner : pair.2 ≤ upper := rising.le below second atHigh
  have apart : one ≠ low := by
    rintro rfl
    have same : lower = pair.1 := Option.some_inj.mp (atLow.symm.trans first)
    omega
  exact ⟨one, two, by omega, order, below, first, second, total⟩

/-- Where the ends sum to too much, the upper one has no partner. -/
theorem PairBetween.of_gt {lower upper : Nat} (rising : Rising entries) (atLow : entries[low]? = some lower)
    (atHigh : entries[high]? = some upper) (large : sum < lower + upper)
    (between : PairBetween entries sum low high pair) : PairBetween entries sum low (high - 1) pair := by
  obtain ⟨one, two, above, order, below, first, second, total⟩ := between
  have partner : lower ≤ pair.1 := rising.le above atLow first
  have apart : two ≠ high := by
    rintro rfl
    have same : upper = pair.2 := Option.some_inj.mp (atHigh.symm.trans second)
    omega
  exact ⟨one, two, above, order, by omega, first, second, total⟩

theorem PairBetween.mono {inner outer : Nat} (between : PairBetween entries sum low high pair) (lower : inner ≤ low)
    (upper : high ≤ outer) : PairBetween entries sum inner outer pair := by
  obtain ⟨one, two, above, order, below, listed⟩ := between
  exact ⟨one, two, lower.trans above, order, below.trans upper, listed⟩

/-- The search between two places of a rising report misses no pair. -/
theorem decides_closeIn? (rising : Rising entries) (inside : high < entries.length) :
    Decides (closeIn? entries.toArray sum low high) (PairBetween entries sum low high) := by
  fun_induction closeIn? entries.toArray sum low high with
  | case1 low high apart ihRaise ihLower =>
    have atLow : entries[low]? = some entries[low] := List.getElem?_eq_getElem (apart.trans inside)
    have atHigh : entries[high]? = some entries[high] := List.getElem?_eq_getElem inside
    have lower : entries[low] < 2 ^ 32 := rising.held _ (List.getElem_mem _)
    have upper : entries[high] < 2 ^ 32 := rising.held _ (List.getElem_mem _)
    have total : Number.word64? (entries[low] + entries[high]) = some (entries[low] + entries[high]) :=
      Number.word64?_eq_some_iff.mpr ⟨rfl, by omega⟩
    simp only [List.getElem?_toArray, atLow, atHigh, total, Option.bind_eq_bind, Option.bind_some]
    cases order : compare (entries[low] + entries[high]) sum with
    | lt =>
      have small := Nat.compare_eq_lt.mp order
      refine (ihRaise inside).widen (fun choice fits => fits.mono (Nat.le_succ low) le_rfl) ?_
      exact fun choice fits => ⟨choice, fits.of_lt rising atLow atHigh small⟩
    | gt =>
      have large := Nat.compare_eq_gt.mp order
      dsimp only
      split
      · rename_i next step
        obtain ⟨-, rfl⟩ := Number.difference?_eq_some_iff.mp step
        refine (ihLower _ step (by omega)).widen (fun choice fits => fits.mono le_rfl (Nat.sub_le high 1)) ?_
        exact fun choice fits => ⟨choice, fits.of_gt rising atLow atHigh large⟩
      · rename_i short
        have none := Number.difference?_eq_none_iff.mp short
        omega
    | eq => exact .found ⟨low, high, le_rfl, apart, le_rfl, atLow, atHigh, Nat.compare_eq_eq.mp order⟩
  | case2 low high crossed =>
    apply Decides.nothing
    rintro choice ⟨one, two, above, order, below, -⟩
    omega

/-- The search for a pair in a rising report. -/
theorem decides_pairWithSum? (rising : Rising entries) (sum : Nat) :
    Decides (pairWithSum? entries sum) (PairAt entries sum) := by
  unfold pairWithSum?
  split
  · rename_i last found
    obtain ⟨filled, rfl⟩ := Number.difference?_eq_some_iff.mp found
    refine (decides_closeIn? rising (by omega)).widen ?_ ?_
    · rintro choice ⟨one, two, -, order, -, listed⟩
      exact ⟨one, two, order.ne, listed⟩
    · rintro choice ⟨one, two, apart, first, second, total⟩
      have oneInside := (List.getElem?_eq_some_iff.mp first).1
      have twoInside := (List.getElem?_eq_some_iff.mp second).1
      obtain order | order := Nat.lt_or_gt_of_ne apart
      · exact ⟨choice, one, two, Nat.zero_le _, order, by omega, first, second, total⟩
      · exact ⟨choice.swap, two, one, Nat.zero_le _, order, by omega, second, first,
          (Nat.add_comm _ _).trans total⟩
  · rename_i short
    have empty := Number.difference?_eq_none_iff.mp short
    apply Decides.nothing
    rintro choice ⟨one, two, apart, first, -⟩
    have inside := (List.getElem?_eq_some_iff.mp first).1
    omega

end Pairs

section Triples

variable {entries rest : List Nat} {entry sum : Nat}

theorem Rising.tail (rising : Rising (entry :: rest)) : Rising rest :=
  ⟨rising.ordered.of_cons, fun other member => rising.held other (List.mem_cons_of_mem _ member)⟩

theorem TripleAt.cons {triple : Nat × Nat × Nat} (later : TripleAt rest sum triple) :
    TripleAt (entry :: rest) sum triple := by
  obtain ⟨one, two, three, first, second, third, listed⟩ := later
  exact ⟨one + 1, two + 1, three + 1, by omega, by omega, by omega, listed⟩

/-- The first entry makes a triple with two later entries that sum to what it leaves. -/
theorem PairAt.cons {pair : Nat × Nat} (fits : entry ≤ sum) (later : PairAt rest (sum - entry) pair) :
    TripleAt (entry :: rest) sum (entry, pair) := by
  obtain ⟨one, two, apart, first, second, total⟩ := later
  refine ⟨0, one + 1, two + 1, by omega, by omega, by omega, rfl, first, second, ?_⟩
  change entry + pair.1 + pair.2 = sum
  omega

theorem exists_pairAt_of_add {one two first second : ℕ} (apart : one ≠ two) (atOne : rest[one]? = some first)
    (atTwo : rest[two]? = some second) (total : entry + first + second = sum) :
    entry ≤ sum ∧ ∃ pair, PairAt rest (sum - entry) pair := by
  refine ⟨by omega, (first, second), one, two, apart, atOne, atTwo, ?_⟩
  change first + second = sum - entry
  omega

/-- A triple has the first entry or lies in the rest. -/
theorem exists_of_tripleAt_cons {triple : Nat × Nat × Nat} (triples : TripleAt (entry :: rest) sum triple) :
    (entry ≤ sum ∧ ∃ pair, PairAt rest (sum - entry) pair) ∨ TripleAt rest sum triple := by
  obtain ⟨one, two, three, oneTwo, oneThree, twoThree, first, second, third, total⟩ := triples
  cases one with
  | zero =>
    obtain ⟨two, rfl⟩ := Nat.exists_eq_succ_of_ne_zero oneTwo.symm
    obtain ⟨three, rfl⟩ := Nat.exists_eq_succ_of_ne_zero oneThree.symm
    have same : entry = triple.1 := Option.some_inj.mp first
    exact .inl (exists_pairAt_of_add (by omega) second third (by omega))
  | succ one =>
    cases two with
    | zero =>
      obtain ⟨three, rfl⟩ := Nat.exists_eq_succ_of_ne_zero twoThree.symm
      have same : entry = triple.2.1 := Option.some_inj.mp second
      exact .inl (exists_pairAt_of_add (by omega) first third (by omega))
    | succ two =>
      cases three with
      | zero =>
        have same : entry = triple.2.2 := Option.some_inj.mp third
        exact .inl (exists_pairAt_of_add (by omega) first second (by omega))
      | succ three => exact .inr ⟨one, two, three, by omega, by omega, by omega, first, second, third, total⟩

/-- The search for a triple in a rising report. -/
theorem decides_tripleWithSum? (rising : Rising entries) (sum : Nat) :
    Decides (tripleWithSum? entries sum) (TripleAt entries sum) := by
  induction entries with
  | nil =>
    apply Decides.nothing
    rintro choice ⟨one, two, three, -, -, -, first, -⟩
    simp at first
  | cons entry rest ih =>
    have later := ih rising.tail
    -- Without a pair for the first entry, all triples lie in the rest.
    have skip (unpaired : ¬ (entry ≤ sum ∧ ∃ pair, PairAt rest (sum - entry) pair)) :
        Decides (tripleWithSum? rest sum) (TripleAt (entry :: rest) sum) := by
      refine later.widen (fun choice fits => fits.cons) fun choice fits => ?_
      exact ⟨choice, (exists_of_tripleAt_cons fits).resolve_left unpaired⟩
    rw [tripleWithSum?]
    split
    · rename_i large
      have beyond := Number.difference?_eq_none_iff.mp large
      exact skip fun both => absurd both.1 (Nat.not_le.mpr beyond)
    · rename_i remaining found
      obtain ⟨fits, rfl⟩ := Number.difference?_eq_some_iff.mp found
      obtain ⟨pair, paired, sums⟩ | ⟨unpaired, none⟩ := (decides_pairWithSum? rising.tail (sum - entry)).cases
      · rw [paired]
        exact .found (sums.cons fits)
      · rw [unpaired]
        exact skip fun ⟨_, pair, sums⟩ => none pair sums

end Triples

section Parts

variable {entries : List Nat}

/-- The entries that are read from a text are in rising order, each of 32 bits. -/
theorem rising_of_parse {text : Text} (parsed : parse text = .ok entries) : Rising entries := by
  obtain ⟨listed, read, sorted⟩ := bind_eq_ok_iff.mp (Outcome.ofExcept_eq_ok_iff.mp parsed)
  cases sorted
  refine ⟨List.pairwise_mergeSort' (· ≤ ·) listed, fun entry member => ?_⟩
  obtain ⟨line, -, literal⟩ := Input.exists_line_of_mem_collect read (List.mem_mergeSort.mp member)
  have bound := Number.readUnsigned_le (mapError_eq_ok_iff.mp literal)
  omega

/-- Words hold every product on the way when they hold the start with as many copies of a bound. -/
theorem foldlM_product_of_le {values : List ℕ} {bound start : ℕ} (each : ∀ value ∈ values, value ≤ bound)
    (positive : 0 < bound) (room : start * bound ^ values.length < 2 ^ 64) :
    values.foldlM (fun total value => Number.word64? (total * value)) start = some (start * values.prod) := by
  induction values generalizing start with
  | nil => simp
  | cons value values ih =>
    obtain ⟨small, each⟩ := List.forall_mem_cons.mp each
    have next : start * value * bound ^ values.length < 2 ^ 64 :=
      calc start * value * bound ^ values.length
        _ ≤ start * bound * bound ^ values.length := Nat.mul_le_mul_right _ (Nat.mul_le_mul_left start small)
        _ = start * bound ^ (value :: values).length := by rw [List.length_cons, Nat.pow_succ', Nat.mul_assoc]
        _ < 2 ^ 64 := room
    have word : start * value < 2 ^ 64 :=
      lt_of_le_of_lt (Nat.le_mul_of_pos_right _ (Nat.pow_pos positive)) next
    rw [List.foldlM_cons, Number.word64?_eq_some_iff.mpr ⟨rfl, word⟩, List.prod_cons, ← Nat.mul_assoc]
    exact ih each next

/-- Two or three entries with the sum of the parts have a product that words hold. -/
theorem product64?_eq_prod {chosen : List ℕ} (sum : chosen.sum = target) (few : chosen.length ≤ 3) :
    Number.product64? chosen = some chosen.prod := by
  have each : ∀ entry ∈ chosen, entry ≤ target := fun entry member => sum ▸ List.le_sum_of_mem member
  have room : 1 * target ^ chosen.length < 2 ^ 64 :=
    calc 1 * target ^ chosen.length
      _ = target ^ chosen.length := Nat.one_mul _
      _ ≤ target ^ 3 := Nat.pow_le_pow_right (by decide) few
      _ < 2 ^ 64 := by decide
  rw [Number.product64?, foldlM_product_of_le each (by decide) room, Nat.one_mul]

theorem answers_pairProduct (rising : Rising entries) :
    Answers (pairProduct entries) (PairAt entries target) (fun pair => pair.1 * pair.2)
      "no two entries sum to 2020" := by
  obtain ⟨⟨first, second⟩, found, fits⟩ | ⟨found, none⟩ := (decides_pairWithSum? rising target).cases
  · refine .inl ⟨(first, second), fits, ?_⟩
    obtain ⟨_, _, -, -, -, total⟩ := fits
    have product : Number.product64? [first, second] = some (first * second) := by
      have sum : [first, second].sum = target := by simpa using total
      rw [product64?_eq_prod sum (Nat.le_succ 2)]
      simp
    rw [pairProduct, found]
    change Outcome.orFault (Number.product64? [first, second]) >>= _ = _
    rw [product]
    rfl
  · rw [pairProduct, found]
    exact .inr ⟨none, rfl⟩

theorem answers_tripleProduct (rising : Rising entries) :
    Answers (tripleProduct entries) (TripleAt entries target) (fun triple => triple.1 * triple.2.1 * triple.2.2)
      "no three entries sum to 2020" := by
  obtain ⟨⟨first, second, third⟩, found, fits⟩ | ⟨found, none⟩ := (decides_tripleWithSum? rising target).cases
  · refine .inl ⟨(first, second, third), fits, ?_⟩
    obtain ⟨_, _, _, -, -, -, -, -, -, total⟩ := fits
    have product : Number.product64? [first, second, third] = some (first * second * third) := by
      have sum : [first, second, third].sum = target := by simpa [Nat.add_assoc] using total
      rw [product64?_eq_prod sum (Nat.le_refl 3)]
      simp [Nat.mul_assoc]
    rw [tripleProduct, found]
    change Outcome.orFault (Number.product64? [first, second, third]) >>= _ = _
    rw [product]
    rfl
  · rw [tripleProduct, found]
    exact .inr ⟨none, rfl⟩

/-- In a rising report of any length, both searches end for every sum, without a sum beyond words or a place
outside. They find entries at two and at three different places with the sum exactly when there are some. The
parts print their exact products, or report that there are none. Every text that can be read gives a rising
report. -/
theorem searches_miss_no_entries :
    (∀ {entries : List ℕ}, Rising entries →
      (∀ sum, Decides (pairWithSum? entries sum) (PairAt entries sum) ∧
        Decides (tripleWithSum? entries sum) (TripleAt entries sum)) ∧
      Answers (pairProduct entries) (PairAt entries target) (fun pair => pair.1 * pair.2)
        "no two entries sum to 2020" ∧
      Answers (tripleProduct entries) (TripleAt entries target)
        (fun triple => triple.1 * triple.2.1 * triple.2.2) "no three entries sum to 2020") ∧
    ∀ {text : Text} {entries : List ℕ}, parse text = .ok entries → Rising entries := by
  refine ⟨fun rising => ⟨fun sum => ?_, ?_, ?_⟩, rising_of_parse⟩
  · exact ⟨decides_pairWithSum? rising sum, decides_tripleWithSum? rising sum⟩
  · exact answers_pairProduct rising
  · exact answers_tripleProduct rising

/-- A report with one entry twice and two near the greatest, and a text out of order. -/
theorem searches_miss_no_entries_twice :
    Rising [0, 1010, 1010, 4294967294, 4294967295] ∧
      (∃ found, pairWithSum? [0, 1010, 1010, 4294967294, 4294967295] 2020 = some (some found)) ∧
      (∃ found, tripleWithSum? [0, 1010, 1010, 4294967294, 4294967295] 2020 = some (some found)) ∧
      ∃ entries, parse "4294967295\n1010\n".toList = .ok entries ∧ Rising entries := by
  have rising : Rising [0, 1010, 1010, 4294967294, 4294967295] := ⟨by decide, by decide⟩
  obtain ⟨pairs, triples⟩ := (searches_miss_no_entries.1 rising).1 2020
  have read : Input.readLines (fun line =>
      (Number.readUnsigned 32 line).mapError Number.LiteralError.message) "4294967295\n1010\n".toList =
        .ok [4294967295, 1010] := by decide +kernel
  have parsed : parse "4294967295\n1010\n".toList = .ok ([4294967295, 1010].mergeSort (· ≤ ·)) := by
    rw [parse, read]
    rfl
  exact ⟨rising, pairs.found_iff.mpr ⟨(1010, 1010), 1, 2, by decide, rfl, rfl, rfl⟩,
    triples.found_iff.mpr ⟨(0, 1010, 1010), 0, 1, 2, by decide, by decide, by decide, rfl, rfl, rfl, rfl⟩,
    _, parsed, searches_miss_no_entries.2 parsed⟩

end Parts

end PuzzleCalendar.Expenses
