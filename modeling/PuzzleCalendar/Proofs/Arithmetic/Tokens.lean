import Mathlib.Data.List.TakeWhile
import PuzzleCalendar.Proofs.Arithmetic.Grammar
import PuzzleCalendar.Proofs.Arithmetic.Scan
import PuzzleCalendar.Proofs.Number.Decimal

/-! # Lines that write expressions

A line writes tokens when it is made of them and of spaces. The scan of a line takes as many digits as
it can for a number, so a line whose tokens have no numbers next to each other is scanned to these
tokens, and what it is scanned to it writes. Together with the check this gives the lines that the
tokenizer accepts.
-/

namespace PuzzleCalendar.Arithmetic

open Text

/-- A text that writes a token: its sign, or a run of ASCII digits whose value is the number. -/
inductive Written : Token → Text → Prop where
  | number {digits : Text} (nonempty : digits ≠ []) (all : ∀ char ∈ digits, Number.IsDigit char)
      (word : Number.decimal digits ≤ 18446744073709551615) :
      Written (.number (Number.decimal digits)) digits
  | add : Written (.op .add) ['+']
  | mul : Written (.op .mul) ['*']
  | opening : Written .opening ['(']
  | closing : Written .closing [')']

/-- A line writes tokens one after the other, with any number of spaces around them. -/
inductive Renders : List Token → Text → Prop where
  | done : Renders [] []
  | space {tokens : List Token} {text : Text} (rest : Renders tokens text) :
      Renders tokens (' ' :: text)
  | token {token : Token} {tokens : List Token} {lexeme text : Text} (written : Written token lexeme)
      (rest : Renders tokens text) : Renders (token :: tokens) (lexeme ++ text)

variable {token : Token} {tokens : List Token} {text : Text}

theorem written_of_symbol? {char : Char} (symbol : symbol? char = some token) :
    Written token [char] := by
  unfold symbol? at symbol
  split at symbol <;> cases symbol
  · exact .add
  · exact .mul
  · exact .opening
  · exact .closing

/-- What a line is scanned to it writes. -/
theorem renders_of_scanAfter (before : Text) (scanned : scanAfter before text = .ok tokens) :
    Renders tokens text := by
  induction size : text.length using Nat.strongRecOn generalizing before text tokens with
  | ind size ih =>
    subst size
    cases text with
    | nil =>
      rw [scanAfter_nil, Except.ok.injEq] at scanned
      exact scanned ▸ .done
    | cons char rest =>
      by_cases space : char = ' '
      · subst space
        rw [scanAfter_space] at scanned
        exact .space (ih rest.length (Nat.lt_succ_self _) _ scanned rfl)
      by_cases digit : isDigit char = true
      · rw [scanAfter_digit before digit] at scanned
        obtain ⟨value, read, later⟩ := bind_eq_ok_iff.mp scanned
        obtain ⟨others, after, same⟩ := bind_eq_ok_iff.mp later
        cases same
        rw [Outcome.mapReport_eq_ok_iff, Outcome.ofExcept_eq_ok_iff] at read
        have all : ∀ other ∈ char :: rest.takeWhile isDigit, Number.IsDigit other :=
          List.forall_mem_cons.mpr
            ⟨isDigit_iff.mp digit, fun other member => isDigit_iff.mp (List.mem_takeWhile_imp member)⟩
        obtain ⟨rfl, word⟩ :=
          (Number.readUnsigned_eq_ok_iff_of_digits (List.cons_ne_nil _ _) all).mp read
        have fewer := Nat.lt_succ_of_le (List.dropWhile_sublist isDigit (l := rest)).length_le
        have whole : char :: rest = char :: rest.takeWhile isDigit ++ rest.dropWhile isDigit := by
          rw [List.cons_append, List.takeWhile_append_dropWhile]
        rw [whole]
        exact .token (.number (List.cons_ne_nil _ _) all (Nat.le_pred_of_lt word))
          (ih _ fewer _ after rfl)
      cases symbol : symbol? char with
      | some token =>
        rw [scanAfter_symbol before symbol] at scanned
        obtain ⟨others, after, same⟩ := bind_eq_ok_iff.mp scanned
        cases same
        exact .token (written_of_symbol? symbol) (ih rest.length (Nat.lt_succ_self _) _ after rfl)
      | none =>
        obtain ⟨error, reported⟩ := exists_scanAfter_eq_report before space digit symbol rest
        rw [reported] at scanned
        cases scanned

/-- Unless a line begins by writing a number, it begins with no digit. -/
theorem Renders.takeWhile_isDigit (renders : Renders tokens text)
    (other : ∀ value, tokens.head? ≠ some (.number value)) : text.takeWhile isDigit = [] := by
  cases renders with
  | done => rfl
  | space rest => rfl
  | token written rest =>
    cases written with
    | number => exact absurd rfl (other _)
    | add | mul | opening | closing => rfl

/-- The digits of a number are scanned to it, when no digit follows them. -/
theorem scanAfter_number {digits rest : Text} (nonempty : digits ≠ [])
    (all : ∀ char ∈ digits, Number.IsDigit char)
    (word : Number.decimal digits ≤ 18446744073709551615) (ends : rest.takeWhile isDigit = [])
    (before : Text) : scanAfter before (digits ++ rest) =
      (do pure (.number (Number.decimal digits) :: (← scanAfter (before ++ digits) rest))) := by
  have read : Number.readUnsigned 64 digits = .ok (Number.decimal digits) :=
    (Number.readUnsigned_eq_ok_iff_of_digits nonempty all).mpr ⟨rfl, Nat.lt_succ_of_le word⟩
  cases digits with
  | nil => contradiction
  | cons char more =>
    obtain ⟨first, others⟩ := List.forall_mem_cons.mp all
    have further : ∀ other ∈ more, isDigit other = true := fun other member =>
      isDigit_iff.mpr (others other member)
    have taken : (more ++ rest).takeWhile isDigit = more := by
      rw [List.takeWhile_append_of_pos further, ends, List.append_nil]
    have left : (more ++ rest).dropWhile isDigit = rest := by
      rw [List.dropWhile_append_of_pos further]
      have whole := List.takeWhile_append_dropWhile (p := isDigit) (l := rest)
      rwa [ends] at whole
    rw [List.cons_append, scanAfter_digit before (isDigit_iff.mpr first), taken, left, read]
    rfl

/-- A line that writes tokens, no two numbers of which are next to each other, is scanned to them. -/
theorem Renders.scanAfter_eq (renders : Renders tokens text) (joins : tokens.IsChain Token.Joins)
    (before : Text) : scanAfter before text = .ok tokens := by
  induction renders generalizing before with
  | done => exact scanAfter_nil before
  | space _ ih =>
    rw [scanAfter_space]
    exact ih joins _
  | @token token tokens lexeme text written rest ih =>
    have later := ih joins.tail
    have signed {char : Char} (symbol : symbol? char = some token) :
        scanAfter before ([char] ++ text) = .ok (token :: tokens) := by
      rw [List.singleton_append, scanAfter_symbol before symbol, later]
      rfl
    cases written with
    | number nonempty all word =>
      have ends : text.takeWhile isDigit = [] := by
        apply rest.takeWhile_isDigit
        intro value first
        obtain ⟨others, rfl⟩ := List.head?_eq_some_iff.mp first
        exact joins.rel.1 ⟨trivial, trivial⟩
      rw [scanAfter_number nonempty all word ends, later]
      rfl
    | add => exact signed rfl
    | mul => exact signed rfl
    | opening => exact signed rfl
    | closing => exact signed rfl

theorem tokenize_eq_ok_iff {line : Text} : tokenize line = .ok tokens ↔
    Derives .expression tokens ∧ Renders tokens line := by
  have steps : tokenize line = .ok tokens ↔
      scanAfter [] line = .ok tokens ∧ checkShape 0 true 1 tokens = .ok () := by
    constructor
    · intro accepted
      obtain ⟨read, scanned, later⟩ := bind_eq_ok_iff.mp accepted
      obtain ⟨_, shaped, same⟩ := bind_eq_ok_iff.mp later
      cases same
      exact ⟨scanned, Outcome.ofExcept_eq_ok_iff.mp shaped⟩
    · rintro ⟨scanned, shaped⟩
      apply bind_eq_ok_iff.mpr
      refine ⟨tokens, scanned, bind_eq_ok_iff.mpr ⟨(), ?_, rfl⟩⟩
      exact Outcome.ofExcept_eq_ok_iff.mpr shaped
  rw [steps, checkShape_eq_ok_iff]
  constructor
  · rintro ⟨scanned, derived⟩
    exact ⟨derived, renders_of_scanAfter [] scanned⟩
  · rintro ⟨derived, renders⟩
    exact ⟨renders.scanAfter_eq derived.joins_and_balanced.1 [], derived⟩

/-- The tokenizer accepts exactly the lines that write an expression of the grammar, with any number of
spaces around its tokens, and gives its tokens; it reports an error for every other line. No tokens that
it gives have two operands without an operator between them or empty parentheses, and all of their
parentheses are balanced. -/
theorem tokenize_accepts_grammar (line : Text) :
    (∀ tokens, tokenize line = .ok tokens ↔ Derives .expression tokens ∧ Renders tokens line) ∧
    ((∃ error, tokenize line = Outcome.report error) ↔
      ¬ ∃ tokens, Derives .expression tokens ∧ Renders tokens line) ∧
    ∀ tokens, tokenize line = .ok tokens → tokens.IsChain Token.Joins ∧ Balanced tokens := by
  refine ⟨fun tokens => tokenize_eq_ok_iff, ?_, ?_⟩
  · simp only [← tokenize_eq_ok_iff]
    rcases outcome : tokenize line with (error | _) | tokens
    · exact iff_of_true ⟨error, rfl⟩ nofun
    · exact absurd outcome (tokenize_ne_fault line)
    · exact iff_of_false nofun (not_not.mpr ⟨tokens, rfl⟩)
  · intro tokens accepted
    exact (tokenize_eq_ok_iff.mp accepted).1.joins_and_balanced

end PuzzleCalendar.Arithmetic
