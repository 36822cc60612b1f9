import PuzzleCalendar.Input
import PuzzleCalendar.Number.Total
import PuzzleCalendar.Number.Width
import PuzzleCalendar.Puzzle

/-! # Questionnaires

The questions are the letters from a to z. A person's answers are a set of questions, held as the bits
of a word. The first part counts the questions that anyone in a group answered, the second one those
that everyone did.
-/

namespace PuzzleCalendar.Questionnaire

open Text

/-- A set of questions; the lowest bit stands for the question a. -/
abbrev Answers := BitVec 32

/-- The set of one question, which a word has only up to its width. -/
def Answers.single? (question : Nat) : Option Answers :=
  if question < 32 then some (1#32 <<< question) else none

/-- The set of the question that a letter names. -/
def ofLetter? (letter : Char) : Option Answers := do
  Answers.single? (← Number.difference? letter.toNat 'a'.toNat)

/-- A small letter names a question. -/
def IsQuestion (char : Char) : Prop := 'a' ≤ char ∧ char ≤ 'z'

instance (char : Char) : Decidable (IsQuestion char) :=
  inferInstanceAs (Decidable (_ ∧ _))

/-- All letters have their bits in the word. -/
theorem ofLetter?_eq_some {letter : Char} (named : IsQuestion letter) :
    ofLetter? letter = some (1#32 <<< (letter.toNat - 'a'.toNat)) := by
  obtain ⟨from_a, to_z⟩ := named
  have low : 'a'.toNat ≤ letter.toNat := from_a
  have high : letter.toNat ≤ 'z'.toNat := to_z
  have inside : letter.toNat - 'a'.toNat < 32 := by
    have width : 'z'.toNat - 'a'.toNat < 32 := by decide
    omega
  rw [ofLetter?, Number.difference?, if_pos low]
  exact if_pos inside

/-- Adds the questions of a text to a set; `person` is the whole line. -/
def addAnswers (person : Text) (answers : Answers) : Text → Outcome ParseError Answers
  | [] => .ok answers
  | char :: rest =>
    if IsQuestion char then do
      addAnswers person (answers ||| (← Outcome.orFault (ofLetter? char))) rest
    else
      Outcome.report (.invalidFormat
        ("unexpected answer " ++ quotedChar (leadByte char) ++ " in " ++ quoted person))

/-- Reads the answers of a person. -/
def readAnswers (person : Text) : Outcome ParseError Answers := addAnswers person 0 person

/-- The number of questions in a set. -/
def size (answers : Answers) : Nat := (List.range 32).countP answers.getLsbD

/-- The questions that anyone answered. -/
def anyone (group : List Answers) : Answers := group.foldl (· ||| ·) 0

/-- The questions that everyone answered. -/
def everyone (group : List Answers) : Answers := group.foldl (· &&& ·) (BitVec.allOnes 32)

/-- The answers of each group. -/
def parse (text : Text) : Outcome ParseError (List (List Answers)) :=
  (Input.blocks text).mapM fun group => group.mapM readAnswers

/-- The sum over all groups of the questions in the set of the group. -/
def countQuestions (set : List Answers → Answers) (groups : List (List Answers)) :
    Outcome SolveError String := do
  let total := Number.total (groups.map fun group => size (set group))
  pure (toString (← Outcome.orFault (Number.word32? total)))

/-- The questionnaires. -/
def puzzle : Puzzle := Puzzle.ofParts parse (countQuestions anyone) (countQuestions everyone)

end PuzzleCalendar.Questionnaire
