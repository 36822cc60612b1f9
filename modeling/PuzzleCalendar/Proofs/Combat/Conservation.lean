import Mathlib.Data.List.Perm.Subperm
import Mathlib.Data.Set.Insert
import PuzzleCalendar.Puzzles.Combat

/-! # Games of recursive combat

The rules of recursive combat are a relation between the decks and states at some moment of a game and the
way in which the game ends. Nothing in the rules bounds a game; that each game ends is a statement of its own,
and the end is the one that is computed. A round moves cards between the decks and loses none, so that the
winner of a game holds all cards, except when a state of the game itself comes back: then player one wins with
the cards in hand.
-/

namespace PuzzleCalendar.Combat

/-- Why a game is over: a deck is empty, or a state of the game came back. -/
inductive Ending where
  | emptied
  | repeated
deriving DecidableEq, Repr

/-- The end of a game. -/
structure Result where
  ending : Ending
  winner : Player
  deck : List Nat
deriving DecidableEq, Repr

/-- The decks after a round: the winner puts the own card and then the other one under the deck. -/
def collect (first second : Nat) (one two : List Nat) : Player → List Nat × List Nat
  | .one => (one ++ [first, second], two)
  | .two => (one, two ++ [second, first])

/-- The player with the higher card; player two when the cards are the same. -/
def higher (first second : Nat) : Player :=
  if second < first then .one else .two

/-- The rules of recursive combat: from the decks on, and with the earlier states of the game, the game ends
with the result. A round is decided by a game with copies of the next cards when both players have as many
cards left as the card they drew says, and by the higher card otherwise. -/
inductive Plays : Set (List Nat × List Nat) → List Nat × List Nat → Result → Prop where
  | twoEmpty (seen : Set (List Nat × List Nat)) (one : List Nat) :
      Plays seen (one, []) ⟨.emptied, .one, one⟩
  | oneEmpty (seen : Set (List Nat × List Nat)) (second : Nat) (two : List Nat) :
      Plays seen ([], second :: two) ⟨.emptied, .two, second :: two⟩
  | repeated {seen : Set (List Nat × List Nat)} {first second : Nat} {one two : List Nat}
      (again : (first :: one, second :: two) ∈ seen) :
      Plays seen (first :: one, second :: two) ⟨.repeated, .one, first :: one⟩
  | subgame {seen : Set (List Nat × List Nat)} {first second : Nat} {one two : List Nat}
      {inner result : Result} (fresh : (first :: one, second :: two) ∉ seen)
      (enough : first ≤ one.length ∧ second ≤ two.length)
      (decides : Plays ∅ (one.take first, two.take second) inner)
      (goesOn : Plays (insert (first :: one, second :: two) seen)
        (collect first second one two inner.winner) result) :
      Plays seen (first :: one, second :: two) result
  | highCard {seen : Set (List Nat × List Nat)} {first second : Nat} {one two : List Nat}
      {result : Result} (fresh : (first :: one, second :: two) ∉ seen)
      (few : ¬ (first ≤ one.length ∧ second ≤ two.length))
      (goesOn : Plays (insert (first :: one, second :: two) seen)
        (collect first second one two (higher first second)) result) :
      Plays seen (first :: one, second :: two) result

variable {seen : Set (List Nat × List Nat)} {hands : List Nat × List Nat} {result other : Result}
  {first second : Nat} {one two : List Nat}

section Rules

/-- The rules leave no choice. -/
theorem Plays.unique (plays : Plays seen hands result) (again : Plays seen hands other) :
    result = other := by
  induction plays generalizing other with
  | twoEmpty => cases again; rfl
  | oneEmpty => cases again; rfl
  | repeated known =>
    cases again with
    | repeated => rfl
    | subgame fresh => exact absurd known fresh
    | highCard fresh => exact absurd known fresh
  | subgame fresh enough _ _ decided onward =>
    cases again with
    | repeated known => exact absurd known fresh
    | subgame _ _ decides goesOn =>
      rw [decided decides] at onward
      exact onward goesOn
    | highCard _ few => exact absurd enough few
  | highCard fresh few _ onward =>
    cases again with
    | repeated known => exact absurd known fresh
    | subgame _ enough => exact absurd enough few
    | highCard _ _ goesOn => exact onward goesOn

/-- A round loses no card. -/
theorem perm_collect (winner : Player) :
    ((collect first second one two winner).1 ++ (collect first second one two winner).2).Perm
      (first :: one ++ second :: two) := by
  cases winner with
  | one => exact perm_winner_one (.refl _)
  | two => exact perm_winner_two (.refl _)

/-- The winner holds all cards at the end of a game, or player one some of them when a state came back. -/
theorem Plays.conserves (plays : Plays seen hands result) :
    result.ending = .emptied ∧ result.deck.Perm (hands.1 ++ hands.2) ∨
      result.ending = .repeated ∧ result.winner = .one ∧ result.deck ≠ [] ∧
        result.deck.Subperm (hands.1 ++ hands.2) := by
  induction plays with
  | twoEmpty seen one => exact .inl ⟨rfl, by simp⟩
  | oneEmpty seen second two => exact .inl ⟨rfl, .refl _⟩
  | repeated =>
    exact .inr ⟨rfl, rfl, List.cons_ne_nil _ _, (List.sublist_append_left ..).subperm⟩
  | subgame fresh enough _ _ _ later =>
    rcases later with ⟨ends, all⟩ | ⟨ends, wins, more, part⟩
    · exact .inl ⟨ends, all.trans (perm_collect _)⟩
    · exact .inr ⟨ends, wins, more, part.trans (perm_collect _).subperm⟩
  | highCard fresh few _ later =>
    rcases later with ⟨ends, all⟩ | ⟨ends, wins, more, part⟩
    · exact .inl ⟨ends, all.trans (perm_collect _)⟩
    · exact .inr ⟨ends, wins, more, part.trans (perm_collect _).subperm⟩

end Rules

section Ends

theorem setOf_mem_empty : {state | state ∈ (∅ : States)} = ∅ := by
  simp

theorem setOf_mem_insert (seen : States) (state : List Nat × List Nat) :
    {other | other ∈ seen.insert state} = insert state {other | other ∈ seen} := by
  ext other
  change other ∈ seen.insert state ↔ other = state ∨ other ∈ seen
  rw [Std.HashSet.mem_insert, beq_iff_eq, eq_comm]

/-- A round goes on with the decks of the player who wins it, in a game of its own or by the higher card. -/
theorem Plays.round {ending : Ending} {player winner : Player} {deck : List Nat}
    (fresh : (first :: one, second :: two) ∉ seen)
    (decides : Plays ∅ (one.take first, two.take second) ⟨ending, player, deck⟩)
    (wins : (if first ≤ one.length ∧ second ≤ two.length then player else higher first second) = winner)
    (goesOn : Plays (insert (first :: one, second :: two) seen)
      (collect first second one two winner) result) :
    Plays seen (first :: one, second :: two) result := by
  subst wins
  by_cases enough : first ≤ one.length ∧ second ≤ two.length
  · rw [if_pos enough] at goesOn
    exact .subgame fresh enough decides goesOn
  · rw [if_neg enough] at goesOn
    exact .highCard fresh enough goesOn

/-- Every game ends, with the winner and the deck that are computed. -/
theorem exists_plays (cards : List Nat) (seen : States) (hands : Hands cards) :
    ∃ ending, Plays {state | state ∈ seen} (hands.one, hands.two)
      ⟨ending, (playRecursivelyOn cards seen hands).1, (playRecursivelyOn cards seen hands).2⟩ := by
  -- The induction is on the cards of a game and then on the states it has not seen.
  fun_induction playRecursivelyOn cards seen hands with
  | case1 cards seen one all => exact ⟨_, .twoEmpty _ one⟩
  | case2 cards seen second two all => exact ⟨_, .oneEmpty _ second two⟩
  | case3 cards seen first one second two all again => exact ⟨_, .repeated again⟩
  | case4 cards seen first one second two all fresh _ _ winner won inner onward
  | case5 cards seen first one second two all fresh _ _ winner won inner onward =>
    obtain ⟨innerEnding, decides⟩ := inner
    obtain ⟨ending, goesOn⟩ := onward
    rw [setOf_mem_empty] at decides
    rw [setOf_mem_insert] at goesOn
    exact ⟨ending, .round fresh decides won goesOn⟩

end Ends

/-- Every game of recursive combat ends in exactly one way, the one that is computed. The winner has no card
only when there was none, and has all cards unless the game itself came back to a state: then player one wins
and has some of them. -/
theorem recursiveCombat_ends (one two : List Nat) :
    ∃ ending, (∀ result, Plays ∅ (one, two) result ↔
        result = ⟨ending, (recursiveCombat one two).1, (recursiveCombat one two).2⟩) ∧
      ((recursiveCombat one two).2 = [] ↔ one = [] ∧ two = []) ∧
      (ending = .emptied ∧ (recursiveCombat one two).2.Perm (one ++ two) ∨
        ending = .repeated ∧ (recursiveCombat one two).1 = .one ∧
          (recursiveCombat one two).2.Subperm (one ++ two)) := by
  obtain ⟨ending, plays⟩ := exists_plays (one ++ two) ∅ ⟨one, two, .refl _⟩
  rw [setOf_mem_empty] at plays
  refine ⟨ending, fun result => ⟨fun other => other.unique plays, fun same => same ▸ plays⟩, ?_⟩
  rcases plays.conserves with ⟨ends, all⟩ | ⟨ends, wins, more, part⟩
  · refine ⟨?_, .inl ⟨ends, all⟩⟩
    have size : (recursiveCombat one two).2.length = (one ++ two).length := all.length_eq
    rw [← List.append_eq_nil_iff, ← List.length_eq_zero_iff, ← List.length_eq_zero_iff, size]
  · refine ⟨?_, .inr ⟨ends, wins, part⟩⟩
    rw [← List.append_eq_nil_iff]
    exact ⟨fun none => absurd none more, fun none => List.subperm_nil.mp (none ▸ part)⟩

end PuzzleCalendar.Combat
