import Mathlib.Algebra.BigOperators.Group.List.Basic
import Mathlib.Algebra.Order.BigOperators.Group.List
import PuzzleCalendar.Proofs.Number.Sums
import PuzzleCalendar.Puzzles.Cipher

/-! # Windows over the numbers

The search for neighbouring numbers moves a window over them. When it has read some numbers, the window
begins at the first place from which they sum to no more than the target, or at the last of them. So numbers
that end there and sum to the target are found, the longest of them first, unless a sum on the way is no
word.
-/

namespace PuzzleCalendar.Cipher

/-- The numbers from a place on and before another one. -/
def between (numbers : List Nat) (start stop : Nat) : List Nat :=
  (numbers.take stop).drop start

/-- At least two neighbouring numbers, from `start` to `last`, sum to the target. -/
def SumsTo (numbers : List Nat) (target start last : Nat) : Prop :=
  start < last ∧ last < numbers.length ∧ (between numbers start (last + 1)).sum = target

/-- The neighbouring numbers that sum to the target and end first, and the longest of them. -/
structure FirstSum (numbers : List Nat) (target start last : Nat) : Prop where
  sums : SumsTo numbers target start last
  earliest (other stop : Nat) : SumsTo numbers target other stop → last ≤ stop
  longest (other : Nat) : SumsTo numbers target other last → start ≤ other

/-- The window over the numbers before `stop`: it begins at the first place from which they sum to no more than
the target, or at the last of them. -/
structure Keeps (numbers : List Nat) (target start stop : Nat) : Prop where
  within : start < stop ∨ start = 0 ∧ stop = 0
  low : start + 1 < stop → (between numbers start stop).sum ≤ target
  high (earlier : Nat) : earlier < start → target < (between numbers earlier stop).sum

/-- The window and the number at `stop` sum to no word. -/
def Overflows (numbers : List Nat) (target stop : Nat) : Prop :=
  stop < numbers.length ∧ ∃ start, Keeps numbers target start stop ∧
    2 ^ 64 ≤ (between numbers start (stop + 1)).sum

/-- What a search that adds up words comes to: the first sum, nothing where there is none, or no result
where a sum on the way is no word. -/
inductive Finds (numbers : List Nat) (target : Nat) : Option (Option (List Nat)) → Prop where
  | range {start last : Nat} (first : FirstSum numbers target start last)
      (words : ∀ stop ≤ last, ¬ Overflows numbers target stop) :
      Finds numbers target (some (some (between numbers start (last + 1))))
  | nothing (nowhere : ∀ start last, ¬ SumsTo numbers target start last)
      (words : ∀ stop, ¬ Overflows numbers target stop) : Finds numbers target (some none)
  | overflow {stop : Nat} (overflows : Overflows numbers target stop)
      (before : ∀ start last, SumsTo numbers target start last → stop ≤ last) :
      Finds numbers target none

section Sums

variable {numbers : List Nat} {target start stop other number : Nat}

theorem between_succ (inside : stop < numbers.length) (ordered : start ≤ stop) :
    between numbers start (stop + 1) = between numbers start stop ++ [numbers[stop]] := by
  rw [between, between, List.take_succ_eq_append_getElem inside, List.drop_append_of_le_length]
  rw [List.length_take, Nat.min_eq_left inside.le]
  exact ordered

theorem sum_between_succ (inside : stop < numbers.length) (ordered : start ≤ stop) :
    (between numbers start (stop + 1)).sum = (between numbers start stop).sum + numbers[stop] := by
  rw [between_succ inside ordered, List.sum_append, List.sum_singleton]

theorem sum_between_eq_add (ordered : start < stop) (inside : stop ≤ numbers.length) :
    (between numbers start stop).sum =
      numbers[start] + (between numbers (start + 1) stop).sum := by
  have there : start < (numbers.take stop).length := by
    rw [List.length_take]
    omega
  rw [between, List.drop_eq_getElem_cons there, List.sum_cons, List.getElem_take]
  rfl

theorem between_self (start : Nat) : between numbers start start = [] :=
  List.drop_eq_nil_iff.mpr (List.length_take_le start numbers)

/-- A shorter part has no greater sum. -/
theorem sum_between_le (ordered : start ≤ other) :
    (between numbers other stop).sum ≤ (between numbers start stop).sum := by
  apply List.Sublist.sum_le_sum
  · exact List.drop_sublist_drop_left _ ordered
  · exact fun _ _ => Nat.zero_le _

/-- There is one window for each number of numbers. -/
theorem Keeps.unique (one : Keeps numbers target start stop) (two : Keeps numbers target other stop) :
    start = other := by
  have ordered {first second : Nat} (first_keeps : Keeps numbers target first stop)
      (second_keeps : Keeps numbers target second stop) : ¬ first < second := by
    intro less
    have high := second_keeps.high first less
    have low := first_keeps.low (by have := second_keeps.within; omega)
    omega
  have := ordered one two
  have := ordered two one
  omega

/-- Where neighbouring numbers end that sum to the target, the window is the longest of them. -/
theorem Keeps.of_sumsTo {last : Nat} (keeps : Keeps numbers target start (last + 1))
    (sums : SumsTo numbers target other last) : SumsTo numbers target start last ∧ start ≤ other := by
  obtain ⟨ordered, inside, sum⟩ := sums
  have below : start ≤ other := by
    by_contra above
    have high := keeps.high other (Nat.not_le.mp above)
    omega
  have low := keeps.low (by omega)
  have least : (between numbers other (last + 1)).sum ≤ (between numbers start (last + 1)).sum :=
    sum_between_le below
  exact ⟨⟨by omega, inside, by omega⟩, below⟩

theorem Keeps.start_le (keeps : Keeps numbers target start stop) : start ≤ stop := by
  have within := keeps.within
  omega

/-- The window is the one that counts when the next number is added. -/
theorem Keeps.overflows_iff (keeps : Keeps numbers target start stop) (inside : stop < numbers.length) :
    Overflows numbers target stop ↔ 2 ^ 64 ≤ (between numbers start (stop + 1)).sum := by
  constructor
  · rintro ⟨_, other, also, large⟩
    rwa [keeps.unique also]
  · intro large
    exact ⟨inside, start, keeps, large⟩

/-- What is before the window stays above the target with the next number. -/
theorem Keeps.high_succ (keeps : Keeps numbers target start stop) (inside : stop < numbers.length)
    (before : other < start) : target < (between numbers other (stop + 1)).sum := by
  have above := keeps.high other before
  have ordered := keeps.start_le
  rw [sum_between_succ inside (by omega)]
  exact Nat.lt_add_right _ above

theorem toList_extract (numbers : List Nat) (start stop : Nat) :
    (numbers.toArray.extract start stop).toList = between numbers start stop := by
  simp [between, List.drop_take]

end Sums

section Search

variable {numbers : List Nat} {target start last : Nat}

/-- Taking numbers off the start leaves the window of the target. -/
theorem exists_shrink? (inside : last < numbers.length) (ordered : start ≤ last)
    (high : ∀ earlier < start, target < (between numbers earlier (last + 1)).sum) :
    ∃ kept, Window.shrink? numbers.toArray target last
        ⟨start, (between numbers start (last + 1)).sum⟩ =
          some ⟨kept, (between numbers kept (last + 1)).sum⟩ ∧
      Keeps numbers target kept (last + 1) := by
  induction remaining : last - start generalizing start with
  | zero =>
    obtain rfl : start = last := by omega
    refine ⟨start, ?_, ⟨.inl (Nat.lt_succ_self start), fun below => by omega, high⟩⟩
    rw [Window.shrink?, if_neg fun both => Nat.lt_irrefl _ both.2]
  | succ remaining ih =>
    have below : start < last := by omega
    rw [Window.shrink?]
    split
    · rename_i above
      have split := sum_between_eq_add (Nat.lt_succ_of_lt below) inside
      have first : numbers.toArray[start]? = some numbers[start] := by simp
      have rest : Number.difference? (between numbers start (last + 1)).sum numbers[start] =
          some (between numbers (start + 1) (last + 1)).sum := by
        rw [split, Number.difference?, if_pos (Nat.le_add_right _ _), Nat.add_sub_cancel_left]
      simp only [first, rest, Option.bind_eq_bind, Option.bind_some]
      refine ih below (fun earlier before => ?_) (by omega)
      obtain less | rfl := Nat.lt_succ_iff_lt_or_eq.mp before
      · exact high earlier less
      · exact above.1
    · rename_i kept
      refine ⟨start, rfl, ⟨.inl (Nat.lt_succ_of_lt below), fun _ => ?_, high⟩⟩
      exact Nat.not_lt.mp fun above => kept ⟨above, below⟩

/-- The search goes on from the window over numbers in which nothing is found. -/
theorem finds_contiguousFrom? (keeps : Keeps numbers target start last)
    (later : ∀ other stop, SumsTo numbers target other stop → last ≤ stop)
    (words : ∀ stop < last, ¬ Overflows numbers target stop) :
    Finds numbers target
      (contiguousFrom? numbers.toArray target ⟨start, (between numbers start last).sum⟩ last) := by
  -- On the numbers left to read: nothing is found before them, and the window is the one that the target keeps.
  induction remaining : numbers.length - last generalizing start last with
  | zero =>
    have ended : ¬ last < numbers.toArray.size := by
      rw [List.size_toArray]
      omega
    rw [contiguousFrom?, dif_neg ended]
    refine .nothing (fun first stop sums => ?_) fun stop overflows => ?_
    · have beyond := later first stop sums
      have inside := sums.2.1
      omega
    · have inside := overflows.1
      exact words stop (by omega) overflows
  | succ remaining ih =>
    have inside : last < numbers.length := by omega
    have next : (between numbers start last).sum + numbers.toArray[last] =
        (between numbers start (last + 1)).sum := (sum_between_succ inside keeps.start_le).symm
    rw [contiguousFrom?, dif_pos (by simpa using inside), next]
    by_cases word : (between numbers start (last + 1)).sum < 2 ^ 64
    · have fine : ∀ stop < last + 1, ¬ Overflows numbers target stop := by
        refine Nat.forall_lt_succ_right.mpr ⟨words, ?_⟩
        rwa [keeps.overflows_iff inside, Nat.not_le]
      obtain ⟨kept, shrunk, keptKeeps⟩ := exists_shrink? inside keeps.start_le
        fun earlier before => keeps.high_succ inside before
      simp only [Number.word64?_eq_some_iff.mpr ⟨rfl, word⟩, shrunk, Option.bind_eq_bind, Option.bind_some]
      split
      · rename_i found
        have sums : SumsTo numbers target kept last := ⟨found.2, inside, found.1⟩
        rw [toList_extract]
        exact .range ⟨sums, later, fun other also => (keptKeeps.of_sumsTo also).2⟩
          fun stop upTo => fine stop (Nat.lt_succ_of_le upTo)
      · rename_i missed
        refine ih keptKeeps (fun other stop sums => ?_) fine (by omega)
        obtain less | rfl := Nat.lt_or_eq_of_le (later other stop sums)
        · exact less
        · obtain ⟨below, _, sum⟩ := (keptKeeps.of_sumsTo sums).1
          exact absurd ⟨sum, below⟩ missed
    · have large := Nat.not_lt.mp word
      rw [Number.word64?_eq_none_iff.mpr large]
      exact .overflow ((keeps.overflows_iff inside).mpr large) later

theorem finds_contiguous? (numbers : List Nat) (target : Nat) :
    Finds numbers target (contiguous? target numbers) := by
  have keeps : Keeps numbers target 0 0 :=
    ⟨.inr ⟨rfl, rfl⟩, fun below => absurd below (Nat.not_lt_zero _), fun _ before =>
      absurd before (Nat.not_lt_zero _)⟩
  have search := finds_contiguousFrom? keeps (fun _ _ _ => Nat.zero_le _)
    fun _ before => absurd before (Nat.not_lt_zero _)
  rwa [between_self] at search

theorem FirstSum.unique {other stop : Nat} (one : FirstSum numbers target start last)
    (two : FirstSum numbers target other stop) : start = other ∧ last = stop := by
  obtain rfl : last = stop :=
    Nat.le_antisymm (one.earliest _ _ two.sums) (two.earliest _ _ one.sums)
  exact ⟨Nat.le_antisymm (one.longest _ two.sums) (two.longest _ one.sums), rfl⟩

/-- A search comes to one result only. -/
theorem Finds.unique {one two : Option (Option (List Nat))} (first : Finds numbers target one)
    (second : Finds numbers target two) : one = two := by
  cases first with
  | range first words =>
    cases second with
    | range second _ =>
      obtain ⟨rfl, rfl⟩ := first.unique second
      rfl
    | nothing nowhere _ => exact absurd first.sums (nowhere _ _)
    | overflow overflows before => exact absurd overflows (words _ (before _ _ first.sums))
  | nothing nowhere words =>
    cases second with
    | range second _ => exact absurd second.sums (nowhere _ _)
    | nothing => rfl
    | overflow overflows _ => exact absurd overflows (words _)
  | overflow overflows before =>
    cases second with
    | range second words => exact absurd overflows (words _ (before _ _ second.sums))
    | nothing _ words => exact absurd overflows (words _)
    | overflow => rfl

theorem contiguous?_eq_iff {result : Option (Option (List Nat))} :
    contiguous? target numbers = result ↔ Finds numbers target result := by
  constructor
  · rintro rfl
    exact finds_contiguous? numbers target
  · exact (finds_contiguous? numbers target).unique

/-- The search breaks off exactly where a window and the next number are too much before anything is
found. -/
theorem contiguous?_eq_none_iff : contiguous? target numbers = none ↔ ∃ stop,
    Overflows numbers target stop ∧ ∀ start last, SumsTo numbers target start last → stop ≤ last := by
  rw [contiguous?_eq_iff]
  constructor
  · rintro (_ | _ | ⟨overflows, before⟩)
    exact ⟨_, overflows, before⟩
  · rintro ⟨_, overflows, before⟩
    exact .overflow overflows before

/-- Numbers and a target of sixty-three bits never sum to more than a word on the way. -/
theorem not_overflows_of_lt (small : ∀ number ∈ numbers, number < 2 ^ 63) (low : target < 2 ^ 63)
    (stop : Nat) : ¬ Overflows numbers target stop := by
  rintro ⟨inside, start, keeps, large⟩
  have within := keeps.within
  rw [sum_between_succ inside (by omega)] at large
  have number := small _ (List.getElem_mem inside)
  have window : (between numbers start stop).sum < 2 ^ 63 := by
    by_cases several : start + 1 < stop
    · exact (keeps.low several).trans_lt low
    · obtain ⟨rfl, rfl⟩ | rfl : start = 0 ∧ stop = 0 ∨ stop = start + 1 := by omega
      · simp [between_self]
      · have before : start < numbers.length := by omega
        rw [sum_between_succ before le_rfl, between_self, List.sum_nil, Nat.zero_add]
        exact small _ (List.getElem_mem before)
  omega

end Search

end PuzzleCalendar.Cipher
