import Mathlib.Data.List.Basic
import PuzzleCalendar.Puzzles.MemoryGame

/-! # The sequence of the memory game

The starting numbers and the rule fix all numbers of the game. The table of last turns is one turn late: it does
not know the turn of the number spoken last when the next one is looked for. Every number that is looked up is
below the size of the table.
-/

namespace PuzzleCalendar.MemoryGame

/-- The last place before `count` at which a number stands in a sequence. -/
structure LastPlace (sequence : Nat → Nat) (count number place : Nat) : Prop where
  before : place < count
  here : sequence place = number
  last (later : Nat) : later < count → place < later → sequence later ≠ number

/-- A sequence that begins with the starting numbers and goes on by the rule: the number after another one is
zero when that one is new, and otherwise says how far back it stood before. -/
structure Plays (start : List Nat) (sequence : Nat → Nat) : Prop where
  opens (index : Nat) (inside : index < start.length) : sequence index = start[index]
  fresh (index : Nat) : start.length ≤ index + 1 →
    (∀ earlier < index, sequence earlier ≠ sequence index) → sequence (index + 1) = 0
  again (index earlier : Nat) : start.length ≤ index + 1 →
    LastPlace sequence index (sequence index) earlier → sequence (index + 1) = index - earlier

/-- The table knows the last turns of the first `count` numbers of a sequence. -/
structure Records (seen : LastSeen) (sequence : Nat → Nat) (count : Nat) : Prop where
  fresh (number : Nat) : (∀ earlier < count, sequence earlier ≠ number) → seen.turns.getD number 0 = 0
  latest (number place : Nat) : LastPlace sequence count number place →
    seen.turns.getD number 0 = place + 1

/-- The number after those spoken so far, of which the last one comes first. -/
def next : List Nat → Nat
  | [] => 0
  | last :: earlier => ((earlier.idxOf? last).map (· + 1)).getD 0

/-- The numbers before a place of the game, the last one first. -/
def history (start : List Nat) : Nat → List Nat
  | 0 => []
  | index + 1 => start[index]?.getD (next (history start index)) :: history start index

/-- The number at a place of the game, counted from zero. -/
def game (start : List Nat) (index : Nat) : Nat :=
  start[index]?.getD (next (history start index))

example : (List.range 10).map (game [0, 3, 6]) = [0, 3, 6, 0, 3, 3, 1, 0, 4, 0] := by decide

section Game

variable {start : List Nat} {index : Nat}

theorem history_succ (start : List Nat) (index : Nat) :
    history start (index + 1) = game start index :: history start index := rfl

theorem length_history (start : List Nat) (index : Nat) : (history start index).length = index := by
  induction index with
  | zero => rfl
  | succ index ih => rw [history_succ, List.length_cons, ih]

/-- Going back from a place leads through the numbers before it. -/
theorem getElem_history {ago : Nat} (inside : ago < (history start index).length) :
    (history start index)[ago] = game start (index - 1 - ago) := by
  induction index generalizing ago with
  | zero => simp [history] at inside
  | succ index ih =>
    cases ago with
    | zero => rfl
    | succ ago =>
      have shorter : ago < (history start index).length := Nat.lt_of_succ_lt_succ inside
      have place : index + 1 - 1 - (ago + 1) = index - 1 - ago := by omega
      rw [place, ← ih shorter]
      rfl

theorem game_succ (beyond : start.length ≤ index + 1) : game start (index + 1) =
    (((history start index).idxOf? (game start index)).map (· + 1)).getD 0 := by
  rw [game, List.getElem?_eq_none beyond, Option.getD_none, history_succ]
  rfl

/-- The starting numbers and the rule give a game. -/
theorem plays_game (start : List Nat) : Plays start (game start) := by
  refine ⟨fun index inside => ?_, fun index beyond none => ?_, fun index earlier beyond place => ?_⟩
  · rw [game, List.getElem?_eq_getElem inside, Option.getD_some]
  · have new : game start index ∉ history start index := by
      intro member
      obtain ⟨ago, inside, same⟩ := List.getElem_of_mem member
      rw [getElem_history inside] at same
      rw [length_history] at inside
      exact none _ (by omega) same
    rw [game_succ beyond, List.idxOf?_eq_none_iff.mpr new]
    rfl
  · have before := place.before
    have inside : index - 1 - earlier < (history start index).length := by
      rw [length_history]
      omega
    have found : (history start index).idxOf? (game start index) = some (index - 1 - earlier) := by
      refine List.idxOf?_eq_some_iff.mpr ⟨inside, ?_, fun ago less => ?_⟩
      · rw [getElem_history inside, ← place.here]
        exact congrArg (game start) (by omega)
      · rw [getElem_history (Nat.lt_trans less inside)]
        exact place.last _ (by omega) (by omega)
    rw [game_succ beyond, found, Option.map_some, Option.getD_some]
    omega

end Game

section Places

variable {sequence : Nat → Nat} {count number place : Nat}

theorem lastPlace_succ_iff : LastPlace sequence (count + 1) number place ↔
    sequence count = number ∧ place = count ∨
      sequence count ≠ number ∧ LastPlace sequence count number place := by
  constructor
  · intro ⟨before, here, last⟩
    obtain less | rfl := Nat.lt_succ_iff_lt_or_eq.mp before
    · exact .inr ⟨last count (Nat.lt_succ_self count) less, less, here,
        fun later inside => last later (Nat.lt_succ_of_lt inside)⟩
    · exact .inl ⟨here, rfl⟩
  · rintro (⟨here, rfl⟩ | ⟨other, before, here, last⟩)
    · exact ⟨Nat.lt_succ_self place, here, fun later inside after => by omega⟩
    · refine ⟨Nat.lt_succ_of_lt before, here, fun later inside after => ?_⟩
      obtain less | rfl := Nat.lt_succ_iff_lt_or_eq.mp inside
      · exact last later less after
      · exact other

/-- A number is new after `count` numbers, or it has a last place. -/
theorem fresh_or_exists_lastPlace (sequence : Nat → Nat) (count number : Nat) :
    (∀ earlier < count, sequence earlier ≠ number) ∨ ∃ place, LastPlace sequence count number place := by
  induction count with
  | zero => exact .inl fun earlier before => absurd before (Nat.not_lt_zero earlier)
  | succ count ih =>
    by_cases here : sequence count = number
    · exact .inr ⟨count, lastPlace_succ_iff.mpr (.inl ⟨here, rfl⟩)⟩
    · obtain new | ⟨place, known⟩ := ih
      · exact .inl (Nat.forall_lt_succ_right.mpr ⟨new, here⟩)
      · exact .inr ⟨place, lastPlace_succ_iff.mpr (.inr ⟨here, known⟩)⟩

end Places

section Table

variable {start : List Nat} {sequence : Nat → Nat} {seen : LastSeen} {count : Nat}

theorem records_blank (bound : Nat) (sequence : Nat → Nat) : Records (.blank bound) sequence 0 :=
  ⟨fun _ _ => Std.HashMap.getD_empty, fun _ _ place => absurd place.before (Nat.not_lt_zero _)⟩

/-- The next number of the sequence takes the place of its earlier turn in the table. -/
theorem Records.exists_replace? (records : Records seen sequence count) (low : sequence count < seen.bound) :
    ∃ later, seen.replace? (sequence count) (count + 1) =
        some (seen.turns.getD (sequence count) 0, later) ∧
      later.bound = seen.bound ∧ Records later sequence (count + 1) := by
  refine ⟨_, if_pos low, rfl, fun number new => ?_, fun number place known => ?_⟩
  · obtain ⟨before, other⟩ := Nat.forall_lt_succ_right.mp new
    rw [Std.HashMap.getD_insert, if_neg (by simpa using other)]
    exact records.fresh number before
  · rw [Std.HashMap.getD_insert]
    obtain ⟨here, rfl⟩ | ⟨other, before⟩ := lastPlace_succ_iff.mp known
    · rw [if_pos (by simpa using here)]
    · rw [if_neg (by simpa using other)]
      exact records.latest number place before

/-- The starting numbers leave their turns in the table. -/
theorem Records.exists_opening? (records : Records seen sequence count) {numbers : List Nat}
    (spoken : ∀ index (inside : index < numbers.length), sequence (count + index) = numbers[index])
    (low : ∀ index < count + numbers.length, sequence index < seen.bound) :
    ∃ later, seen.opening? (count + 1) numbers = some later ∧ later.bound = seen.bound ∧
      Records later sequence (count + numbers.length) := by
  induction numbers generalizing seen count with
  | nil => exact ⟨seen, rfl, rfl, records⟩
  | cons number numbers ih =>
    have here : sequence count = number := spoken 0 (Nat.zero_lt_succ _)
    rw [List.length_cons, ← Nat.add_assoc, Nat.add_right_comm] at low ⊢
    obtain ⟨after, replaced, bound, next⟩ := records.exists_replace? (low count (by omega))
    have rest (index : Nat) (inside : index < numbers.length) :
        sequence (count + 1 + index) = numbers[index] := by
      rw [Nat.add_right_comm]
      exact spoken (index + 1) (Nat.succ_lt_succ inside)
    obtain ⟨later, opened, same, all⟩ := ih next rest (bound ▸ low)
    refine ⟨later, ?_, same.trans bound, all⟩
    rw [LastSeen.opening?, ← here, replaced]
    exact opened

theorem exists_opening?_blank {bound : Nat} {numbers : List Nat}
    (spoken : ∀ index (inside : index < numbers.length), sequence index = numbers[index])
    (low : ∀ index < numbers.length, sequence index < bound) :
    ∃ seen, (LastSeen.blank bound).opening? 1 numbers = some seen ∧ seen.bound = bound ∧
      Records seen sequence numbers.length := by
  have opens : ∀ index (inside : index < numbers.length), sequence (0 + index) = numbers[index] := by
    simpa only [Nat.zero_add] using spoken
  have below : ∀ index < 0 + numbers.length, sequence index < bound := by
    simpa only [Nat.zero_add] using low
  obtain ⟨seen, opened, kept, records⟩ := (records_blank bound sequence).exists_opening? opens below
  rw [Nat.zero_add] at records
  exact ⟨seen, opened, kept, records⟩

/-- What the table knows about the number spoken last makes the next one. -/
theorem Records.next (records : Records seen sequence count) (plays : Plays start sequence)
    (beyond : start.length ≤ count + 1) :
    (if seen.turns.getD (sequence count) 0 = 0 then some 0
      else Number.difference? (count + 1) (seen.turns.getD (sequence count) 0)) =
      some (sequence (count + 1)) := by
  obtain new | ⟨place, known⟩ := fresh_or_exists_lastPlace sequence count (sequence count)
  · rw [records.fresh _ new, if_pos rfl, plays.fresh count beyond new]
  · have before := known.before
    rw [records.latest _ _ known, if_neg (Nat.succ_ne_zero place), Number.difference?, if_pos (by omega),
      plays.again count place beyond known, Nat.add_sub_add_right]

/-- The game goes on from a table that knows all turns but the last one. -/
theorem Records.speak? (records : Records seen sequence count) (plays : Plays start sequence)
    (beyond : start.length ≤ count + 1) {more : Nat}
    (low : ∀ index < count + more, sequence index < seen.bound) :
    LastSeen.speak? more seen (count + 1) (sequence count) = some (sequence (count + more)) := by
  induction more generalizing seen count with
  | zero => rfl
  | succ more ih =>
    rw [← Nat.add_assoc, Nat.add_right_comm] at low ⊢
    obtain ⟨later, replaced, bound, all⟩ := records.exists_replace? (low count (by omega))
    have goes_on := ih all (Nat.le_succ_of_le beyond) (bound ▸ low)
    have next := records.next plays beyond
    rw [LastSeen.speak?, replaced]
    simp only [Option.bind_eq_bind, Option.bind_some]
    split at next
    · rename_i new
      rw [if_pos new, Option.some_inj.mp next, goes_on]
    · rename_i known
      rw [if_neg known, next, Option.bind_some, goes_on]

/-- All numbers before a turn are below the size of its table. -/
theorem Plays.lt_numberBound {turn index : Nat} (plays : Plays start sequence) (nonempty : start ≠ [])
    (before : index < turn) : sequence index < numberBound start turn := by
  have turn_le : turn ≤ numberBound start turn := Nat.le_max_left _ _
  by_cases inside : index < start.length
  · obtain ⟨greatest, found⟩ := Option.isSome_iff_exists.mp (List.isSome_max?_iff.mpr nonempty)
    have most : start[index] ≤ greatest :=
      (List.max?_eq_some_iff.mp found).2 _ (List.getElem_mem inside)
    rw [plays.opens index inside, numberBound, found, Option.map_some, Option.getD_some]
    omega
  · have some_start := List.length_pos_iff.mpr nonempty
    obtain ⟨last, rfl⟩ := Nat.exists_eq_add_of_le' (show 1 ≤ index by omega)
    obtain new | ⟨place, known⟩ := fresh_or_exists_lastPlace sequence last (sequence last)
    · rw [plays.fresh last (Nat.not_lt.mp inside) new]
      omega
    · rw [plays.again last place (Nat.not_lt.mp inside) known]
      omega

end Table

/-- The number spoken at each turn is the one at its place of the game: the one sequence that begins with the
starting numbers and goes on by the rule. No number is too large for the table. -/
theorem spoken?_eq_of_plays {start : List Nat} (nonempty : start ≠ []) :
    Plays start (game start) ∧ ∀ sequence, Plays start sequence →
      ∀ turn, spoken? start (turn + 1) = some (sequence turn) := by
  refine ⟨plays_game start, fun sequence plays turn => ?_⟩
  obtain ⟨opening, last, rfl⟩ := List.eq_nil_or_concat start |>.resolve_left nonempty
  rw [List.concat_eq_append] at plays nonempty ⊢
  have size : (opening ++ [last]).length = opening.length + 1 := List.length_append
  have low (index : Nat) (before : index < turn + 1) :
      sequence index < numberBound (opening ++ [last]) (turn + 1) := plays.lt_numberBound nonempty before
  simp only [spoken?, List.getLast?_concat, List.dropLast_concat, size]
  split
  · rename_i upTo
    have inside : turn < (opening ++ [last]).length := by omega
    rw [List.getElem?_eq_getElem inside, plays.opens turn inside]
  · rename_i beyond
    -- The table holds the turns of all starting numbers but the last one, whose turn comes one turn late.
    have opens (index : Nat) (inside : index < opening.length) : sequence index = opening[index] := by
      rw [plays.opens index (by omega), List.getElem_append_left inside]
    have spoken : sequence opening.length = last := by
      rw [plays.opens opening.length (by omega), List.getElem_concat_length rfl]
    obtain ⟨seen, opened, bound, records⟩ :=
      exists_opening?_blank opens fun index before => low index (by omega)
    obtain ⟨more, rfl⟩ := Nat.exists_eq_add_of_le (show opening.length ≤ turn by omega)
    have left : opening.length + more + 1 - (opening.length + 1) = more := by omega
    rw [opened, Option.bind_eq_bind, Option.bind_some, left, ← spoken]
    exact records.speak? plays (Nat.le_of_eq size) fun index before => bound ▸ low index (Nat.lt_succ_of_lt before)

/-- A starting number may be far above the turns that are played. -/
theorem spoken?_eq_of_plays_large : [5000, 1] ≠ [] ∧ spoken? [5000, 1] 4 = some 0 ∧
    spoken? [5000, 1] 5 = some 1 ∧ spoken? [5000, 1] 6 = some 3 := by
  have nonempty : [5000, 1] ≠ [] := List.cons_ne_nil 5000 [1]
  obtain ⟨plays, turns⟩ := spoken?_eq_of_plays nonempty
  have spoken := turns (game [5000, 1]) plays
  exact ⟨nonempty, spoken 3, spoken 4, spoken 5⟩

end PuzzleCalendar.MemoryGame
