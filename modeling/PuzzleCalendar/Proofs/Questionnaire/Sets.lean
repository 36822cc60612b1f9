import Mathlib.Data.Set.Card
import PuzzleCalendar.Proofs.Lines.Blocks
import PuzzleCalendar.Proofs.Number.Sums
import PuzzleCalendar.Proofs.Parsing.Faults
import PuzzleCalendar.Puzzles.Questionnaire

/-! # Words as sets of letters

The word of a person has a bit for each letter that the person answered, and different letters have different
bits, so that disjunctions and conjunctions of words are unions and intersections of sets of letters. A group
has at least one person, whose word takes all bits that stand for no letter out of the first conjunction.
So the sizes that are added up are numbers of letters.
-/

namespace PuzzleCalendar.Questionnaire

open Text

/-- The bit of a letter. -/
def place (letter : Char) : Nat := letter.toNat - 'a'.toNat

/-- The letters that anyone in a group answered. -/
def answeredByAnyone (people : List Text) : Set Char :=
  {letter | IsQuestion letter ∧ ∃ person ∈ people, letter ∈ person}

/-- The letters that everyone in a group answered. -/
def answeredByEveryone (people : List Text) : Set Char :=
  {letter | IsQuestion letter ∧ ∀ person ∈ people, letter ∈ person}

/-- The numbers of letters of all groups, added up. -/
noncomputable def lettersInAll (letters : List Text → Set Char) (text : Text) : Nat :=
  ((Input.blocks text).map fun people => (letters people).ncard).sum

/-- The words of a group are the answers of its people. -/
abbrev ReadAs (people : List Text) (group : List Answers) : Prop :=
  List.Forall₂ (fun person answers => readAnswers person = .ok answers) people group

/-- A word has the bits of some letters and no others. -/
structure Shows (answers : Answers) (letters : Set Char) : Prop where
  questions : ∀ letter ∈ letters, IsQuestion letter
  bits : ∀ bit, answers.getLsbD bit = true ↔ ∃ letter ∈ letters, place letter = bit

section Letters

variable {letter other : Char}

theorem place_lt (question : IsQuestion letter) : place letter < 26 := by
  have low : 97 ≤ letter.toNat := question.1
  have high : letter.toNat ≤ 122 := question.2
  have zero : 'a'.toNat = 97 := rfl
  rw [place]
  omega

theorem place_injOn : Set.InjOn place {letter | IsQuestion letter} := by
  intro letter question other also same
  have low : 97 ≤ letter.toNat := question.1
  have alsoLow : 97 ≤ other.toNat := also.1
  have zero : 'a'.toNat = 97 := rfl
  rw [place, place] at same
  exact Char.toNat_inj.mp (by omega)

end Letters

section Words

variable {answers one two : Answers} {letters firsts seconds : Set Char} {letter : Char} {person text : Text}

theorem shows_zero : Shows 0 ∅ := ⟨nofun, by simp⟩

theorem shows_singleton (question : IsQuestion letter) : Shows (1#32 <<< place letter) {letter} := by
  refine ⟨fun other same => same ▸ question, fun bit => ?_⟩
  have inside : place letter < 32 := Nat.lt_trans (place_lt question) (by decide)
  simp [← BitVec.twoPow_eq, BitVec.getLsbD_twoPow, inside]

theorem Shows.union (first : Shows one firsts) (second : Shows two seconds) :
    Shows (one ||| two) (firsts ∪ seconds) := by
  refine ⟨fun letter member => member.elim (first.questions letter) (second.questions letter), fun bit => ?_⟩
  rw [BitVec.getLsbD_or, Bool.or_eq_true, first.bits, second.bits]
  simp only [Set.mem_union, or_and_right, exists_or]

theorem Shows.inter (first : Shows one firsts) (second : Shows two seconds) :
    Shows (one &&& two) (firsts ∩ seconds) := by
  refine ⟨fun letter member => first.questions letter member.1, fun bit => ?_⟩
  rw [BitVec.getLsbD_and, Bool.and_eq_true, first.bits, second.bits]
  constructor
  · rintro ⟨⟨letter, member, rfl⟩, other, also, same⟩
    obtain rfl := place_injOn (first.questions letter member) (second.questions other also) same.symm
    exact ⟨letter, ⟨member, also⟩, rfl⟩
  · rintro ⟨letter, ⟨member, also⟩, rfl⟩
    exact ⟨⟨letter, member, rfl⟩, letter, also, rfl⟩

theorem Shows.bit_lt (shows : Shows answers letters) {bit : Nat} (holds : answers.getLsbD bit = true) :
    bit < 26 := by
  obtain ⟨letter, member, rfl⟩ := (shows.bits bit).mp holds
  exact place_lt (shows.questions letter member)

/-- The size of a word is the number of its letters. -/
theorem Shows.size_eq (shows : Shows answers letters) : size answers = letters.ncard := by
  have bits : (((List.range 32).filter answers.getLsbD).toFinset : Set Nat) = place '' letters := by
    ext bit
    rw [List.coe_toFinset, Set.mem_ofPred_eq, List.mem_filter, List.mem_range, Set.mem_image, ← shows.bits]
    exact and_iff_right_of_imp BitVec.lt_of_getLsbD
  have distinct : ((List.range 32).filter answers.getLsbD).Nodup := List.nodup_range.filter _
  rw [size, List.countP_eq_length_filter, ← List.toFinset_card_of_nodup distinct, ← Set.ncard_coe_finset,
    bits, (place_injOn.mono shows.questions).ncard_image]

/-- Each letter of a text adds its bit to the word. -/
theorem shows_of_addAnswers (start : Shows one letters) (read : addAnswers person one text = .ok answers) :
    Shows answers (letters ∪ {letter | letter ∈ text}) := by
  induction text generalizing one letters with
  | nil =>
    obtain rfl := Except.ok.inj read
    simpa using start
  | cons letter text ih =>
    rw [addAnswers] at read
    split at read
    · rename_i question
      rw [ofLetter?_eq_some question] at read
      have whole : letters ∪ {other | other ∈ letter :: text} =
          letters ∪ {letter} ∪ {other | other ∈ text} := by
        ext other
        simp only [List.mem_cons, Set.mem_union, Set.mem_singleton_iff, Set.mem_ofPred_eq, or_assoc]
      rw [whole]
      exact ih (start.union (shows_singleton question)) read
    · contradiction

theorem shows_of_readAnswers (read : readAnswers person = .ok answers) :
    Shows answers {letter | letter ∈ person} := by
  simpa using shows_of_addAnswers shows_zero read

end Words

section Groups

variable {people : List Text} {group : List Answers} {start : Answers} {letters : Set Char}

theorem shows_foldl_or (read : ReadAs people group) (first : Shows start letters) :
    Shows (group.foldl (· ||| ·) start) (letters ∪ {letter | ∃ person ∈ people, letter ∈ person}) := by
  induction read generalizing start letters with
  | nil => simpa using first
  | @cons person answers people group now _ ih =>
    have whole : letters ∪ {letter | ∃ other ∈ person :: people, letter ∈ other} =
        letters ∪ {letter | letter ∈ person} ∪ {letter | ∃ other ∈ people, letter ∈ other} := by
      ext letter
      simp [or_assoc]
    rw [List.foldl_cons, whole]
    exact ih (first.union (shows_of_readAnswers now))

theorem shows_foldl_and (read : ReadAs people group) (first : Shows start letters) :
    Shows (group.foldl (· &&& ·) start) (letters ∩ {letter | ∀ person ∈ people, letter ∈ person}) := by
  induction read generalizing start letters with
  | nil => simpa using first
  | @cons person answers people group now _ ih =>
    have whole : letters ∩ {letter | ∀ other ∈ person :: people, letter ∈ other} =
        letters ∩ {letter | letter ∈ person} ∩ {letter | ∀ other ∈ people, letter ∈ other} := by
      ext letter
      simp [and_assoc]
    rw [List.foldl_cons, whole]
    exact ih (first.inter (shows_of_readAnswers now))

theorem shows_anyone (read : ReadAs people group) : Shows (anyone group) (answeredByAnyone people) := by
  have shows := shows_foldl_or read shows_zero
  have same : ∅ ∪ {letter | ∃ person ∈ people, letter ∈ person} = answeredByAnyone people := by
    ext letter
    simp only [Set.empty_union, answeredByAnyone]
    exact (and_iff_right_of_imp fun some => shows.questions letter (.inr some)).symm
  rwa [same] at shows

/-- The first person of a group leaves no bit of the start that stands for no letter. -/
theorem shows_everyone (some : people ≠ []) (read : ReadAs people group) :
    Shows (everyone group) (answeredByEveryone people) := by
  cases read with
  | nil => contradiction
  | @cons person answers people group now later =>
    have shows := shows_foldl_and later (shows_of_readAnswers now)
    have same : {letter | letter ∈ person} ∩ {letter | ∀ other ∈ people, letter ∈ other} =
        answeredByEveryone (person :: people) := by
      ext letter
      simp only [answeredByEveryone, List.forall_mem_cons]
      exact (and_iff_right_of_imp fun all => shows.questions letter all).symm
    rwa [same, ← BitVec.allOnes_and (x := answers)] at shows

end Groups

section Parts

variable {groups : List (List Answers)} {text : Text}

/-- The groups are the blocks, and every group has at least one person. -/
theorem groups_of_parse (read : parse text = .ok groups) :
    List.Forall₂ (fun people group => people ≠ [] ∧ ReadAs people group) (Input.blocks text) groups := by
  rw [List.forall₂_and_left]
  exact ⟨fun _ => Input.ne_nil_of_mem_blocks, (mapM_eq_ok_iff.mp read).imp fun _ _ => mapM_eq_ok_iff.mp⟩

/-- The sizes of the words of all groups are added up in a word. -/
theorem countQuestions_eq {set : List Answers → Answers} {letters : List Text → Set Char}
    (read : parse text = .ok groups)
    (shows : ∀ people group, people ≠ [] → ReadAs people group → Shows (set group) (letters people)) :
    countQuestions set groups =
      if lettersInAll letters text < 2 ^ 32 then .ok (toString (lettersInAll letters text))
      else Outcome.fault := by
  have sizes : ((Input.blocks text).map fun people => (letters people).ncard) =
      groups.map fun group => size (set group) :=
    map_eq_map_of_forall₂ (groups_of_parse read)
      fun people group pair => (shows people group pair.1 pair.2).size_eq.symm
  rw [countQuestions, ← sizes, Number.total_eq_sum]
  exact bind_orFault_ite

/-- The parts add up, over all groups, the numbers of letters that anyone answered and that everyone did,
and fault when no word holds the sum. Every group has a person, and no word of a group has a bit that stands
for no letter. -/
theorem countQuestions_of_parse (read : parse text = .ok groups) :
    (∀ group ∈ groups, group ≠ [] ∧ ∀ bit, (everyone group).getLsbD bit = true → bit < 26) ∧
    (countQuestions anyone groups =
      if lettersInAll answeredByAnyone text < 2 ^ 32 then .ok (toString (lettersInAll answeredByAnyone text))
      else Outcome.fault) ∧
    countQuestions everyone groups =
      if lettersInAll answeredByEveryone text < 2 ^ 32 then
        .ok (toString (lettersInAll answeredByEveryone text))
      else Outcome.fault := by
  refine ⟨?_, countQuestions_eq read fun _ _ _ => shows_anyone, countQuestions_eq read fun _ _ => shows_everyone⟩
  have each : List.Forall₂ (fun group _ => (group ≠ [] ∧
      ∀ bit, (everyone group).getLsbD bit = true → bit < 26) ∧ True) groups (Input.blocks text) := by
    apply (groups_of_parse read).flip.imp
    rintro group people ⟨some, answers⟩
    refine ⟨⟨?_, fun bit => (shows_everyone some answers).bit_lt⟩, trivial⟩
    rintro rfl
    exact some (List.forall₂_nil_right_iff.mp answers)
  exact ((List.forall₂_and_left _ _).mp each).1

theorem countQuestions_of_parse_groups : ∃ groups, parse "abc\n\nab\nac\n\n\nzz\n".toList = .ok groups ∧
    countQuestions everyone groups =
      if lettersInAll answeredByEveryone "abc\n\nab\nac\n\n\nzz\n".toList < 2 ^ 32 then
        .ok (toString (lettersInAll answeredByEveryone "abc\n\nab\nac\n\n\nzz\n".toList))
      else Outcome.fault := by
  have read : parse "abc\n\nab\nac\n\n\nzz\n".toList = .ok [[7#32], [3#32, 5#32], [33554432#32]] := by
    decide +kernel
  exact ⟨_, read, (countQuestions_of_parse read).2.2⟩

end Parts

end PuzzleCalendar.Questionnaire
