import PuzzleCalendar.Input
import PuzzleCalendar.Marks
import PuzzleCalendar.Number.Literal
import PuzzleCalendar.Number.Width
import PuzzleCalendar.Puzzle

/-! # Card combat

Two players lay down their top cards, and the winner of the round puts both under their own deck. In
recursive combat a round is decided by a game with copies of the next cards where there are enough of
them, and a repeated state ends a game. No card is ever lost, so that a game runs through finitely many
states, and a game inside a round has fewer cards.
-/

namespace PuzzleCalendar.Combat

/-- One of the two players. -/
inductive Player where
  | one
  | two
deriving DecidableEq, Repr

/-- Two decks that hold certain cards between them, each from the top down. -/
structure Hands (cards : List Nat) where
  one : List Nat
  two : List Nat
  all : (one ++ two).Perm cards

/-- The texts of a length over some letters. -/
def wordsOver (letters : List Nat) : Nat → List (List Nat)
  | 0 => [[]]
  | length + 1 =>
    letters.flatMap fun letter => (wordsOver letters length).map (letter :: ·)

theorem mem_wordsOver {letters word : List Nat} {length : Nat} :
    word ∈ wordsOver letters length ↔ word.length = length ∧ ∀ letter ∈ word, letter ∈ letters := by
  induction length generalizing word with
  | zero =>
    simp only [wordsOver, List.mem_singleton, List.length_eq_zero_iff]
    constructor
    · rintro rfl
      exact ⟨rfl, by simp⟩
    · exact And.left
  | succ length ih =>
    simp only [wordsOver, List.mem_flatMap, List.mem_map, ih]
    constructor
    · rintro ⟨letter, member, rest, ⟨size, known⟩, rfl⟩
      exact ⟨by simp [size], by simpa using ⟨member, known⟩⟩
    · rintro ⟨size, known⟩
      cases word with
      | nil => simp at size
      | cons letter rest =>
        exact ⟨letter, known _ List.mem_cons_self, rest,
          ⟨by simpa using size, fun other member => known _ (List.mem_cons_of_mem _ member)⟩, rfl⟩

/-- The pairs of decks that some cards can be dealt out to, and more. -/
def deals (cards : List Nat) : List (List Nat × List Nat) :=
  (wordsOver cards cards.length).flatMap fun word =>
    (List.range (cards.length + 1)).map word.splitAt

theorem mem_deals {cards one two : List Nat} (all : (one ++ two).Perm cards) :
    (one, two) ∈ deals cards := by
  simp only [deals, List.mem_flatMap, List.mem_map, List.mem_range]
  refine ⟨one ++ two, mem_wordsOver.mpr ⟨all.length_eq, fun card member => all.mem_iff.mp member⟩,
    one.length, ?_, ?_⟩
  · have size := all.length_eq
    simp only [List.length_append] at size
    omega
  · simp

theorem perm_winner_one {first second : Nat} {one two cards : List Nat}
    (all : (first :: one ++ second :: two).Perm cards) :
    (one ++ [first, second] ++ two).Perm cards := by
  refine List.Perm.trans (List.perm_iff_count.mpr fun card => ?_) all
  simp only [List.count_append, List.count_cons, List.count_nil, List.cons_append]
  omega

theorem perm_winner_two {first second : Nat} {one two cards : List Nat}
    (all : (first :: one ++ second :: two).Perm cards) :
    (one ++ (two ++ [second, first])).Perm cards := by
  refine List.Perm.trans (List.perm_iff_count.mpr fun card => ?_) all
  simp only [List.count_append, List.count_cons, List.count_nil, List.cons_append]
  omega

/-- The states that a game went through. -/
abbrev States := Std.HashSet (List Nat × List Nat)

/-- Plays combat on. `seen` holds the earlier states of the game; a state that comes back makes the
game endless, and it has no winner. -/
def playOn {cards : List Nat} (seen : States) : Hands cards → Option (Player × List Nat)
  | ⟨one, [], _⟩ => some (.one, one)
  | ⟨[], second :: two, _⟩ => some (.two, second :: two)
  | ⟨first :: one, second :: two, all⟩ =>
    if again : (first :: one, second :: two) ∈ seen then none
    else
      have := unmarked_insert_lt (mem_deals all) again
      if second < first then
        playOn (seen.insert (first :: one, second :: two))
          ⟨one ++ [first, second], two, perm_winner_one all⟩
      else
        playOn (seen.insert (first :: one, second :: two))
          ⟨one, two ++ [second, first], perm_winner_two all⟩
termination_by unmarked (deals cards) seen.toList

/-- The winner of combat with the winning deck, when the game ends. -/
def combat? (one two : List Nat) : Option (Player × List Nat) :=
  playOn ∅ (⟨one, two, .refl _⟩ : Hands (one ++ two))

/-- The copies of a round's next cards are fewer than all cards. -/
theorem length_copies_lt {first second : Nat} {one two cards : List Nat}
    (all : (first :: one ++ second :: two).Perm cards) :
    (one.take first ++ two.take second).length < cards.length := by
  have size := all.length_eq
  simp only [List.cons_append, List.length_cons, List.length_append] at size
  simp only [List.length_append, List.length_take]
  omega

/-- Plays recursive combat on. `seen` holds the earlier states of the game; a state that comes back
makes player one win. -/
def playRecursivelyOn (cards : List Nat) (seen : States) : Hands cards → Player × List Nat
  | ⟨one, [], _⟩ => (.one, one)
  | ⟨[], second :: two, _⟩ => (.two, second :: two)
  | ⟨first :: one, second :: two, all⟩ =>
    if again : (first :: one, second :: two) ∈ seen then (.one, first :: one)
    else
      have := length_copies_lt all
      have := unmarked_insert_lt (mem_deals all) again
      let winner :=
        if first ≤ one.length ∧ second ≤ two.length then
          (playRecursivelyOn (one.take first ++ two.take second) ∅
            ⟨one.take first, two.take second, .refl _⟩).1
        else if second < first then .one
        else .two
      match winner with
      | .one =>
        playRecursivelyOn cards (seen.insert (first :: one, second :: two))
          ⟨one ++ [first, second], two, perm_winner_one all⟩
      | .two =>
        playRecursivelyOn cards (seen.insert (first :: one, second :: two))
          ⟨one, two ++ [second, first], perm_winner_two all⟩
termination_by (cards.length, unmarked (deals cards) seen.toList)
decreasing_by
  · exact Prod.Lex.left _ _ (by assumption)
  · exact Prod.Lex.right _ (by assumption)
  · exact Prod.Lex.right _ (by assumption)

/-- The winner of recursive combat with the winning deck. -/
def recursiveCombat (one two : List Nat) : Player × List Nat :=
  playRecursivelyOn (one ++ two) ∅ ⟨one, two, .refl _⟩

/-- The sum of the cards, each times its place counted from the bottom, when a word holds it. -/
def score? (deck : List Nat) : Option Nat :=
  Number.sum64? ((deck.reverse.zipIdx 1).map fun (card, place) => card * place)

/-- Reads the deck of a player from the lines of a block. -/
def readDeck (player : String) : List Text → Except ParseError (List Nat)
  | [] => .error (.missingData s!"deck for {player}")
  | header :: cards =>
    if header = (player ++ ":").toList then
      cards.mapM fun card =>
        (Number.readUnsigned 32 card).mapError fun error =>
          .invalidFormat s!"{player} card {Text.quoted card}: {error.message}"
    else
      .error (.invalidFormat s!"expected `{player}:`, found {Text.quoted header}")

/-- The decks of both players. -/
def parse (text : Text) : Outcome ParseError (List Nat × List Nat) :=
  Outcome.ofExcept <|
    match Input.blocks text with
    | [one, two] => do pure (← readDeck "Player 1" one, ← readDeck "Player 2" two)
    | blocks => .error (.invalidFormat s!"expected two decks, found {blocks.length}")

/-- The score of the winning deck; a game without an end has none. -/
def combatScore (decks : List Nat × List Nat) : Outcome SolveError String := do
  let (_, deck) ← Outcome.orFault (combat? decks.1 decks.2)
  pure (toString (← Outcome.orFault (score? deck)))

/-- The score of the deck that wins recursive combat. -/
def recursiveScore (decks : List Nat × List Nat) : Outcome SolveError String := do
  pure (toString (← Outcome.orFault (score? (recursiveCombat decks.1 decks.2).2)))

/-- The card game. -/
def puzzle : Puzzle := Puzzle.ofParts parse combatScore recursiveScore

end PuzzleCalendar.Combat
