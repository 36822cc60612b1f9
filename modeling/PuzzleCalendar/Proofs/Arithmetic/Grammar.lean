import Mathlib.Data.List.Chain
import Mathlib.Tactic.ByContra
import PuzzleCalendar.Proofs.Arithmetic.Expression

/-! # The grammar of expressions

An expression is an operand and any number of steps, each an operator and an operand; an operand is a
number or an expression in parentheses. The check of a token list keeps a depth and whether an operand
is wanted. Past the tokens of any symbol of the grammar it wants none, at the depth at which it met
them, and what passes the check is written from a tree, which the grammar derives.
-/

namespace PuzzleCalendar.Arithmetic

/-- The symbols of the grammar. -/
inductive Symbol where
  | expression
  | steps
  | operand

/-- The token lists that the grammar derives from a symbol. -/
inductive Derives : Symbol → List Token → Prop where
  | expression {first rest : List Token} (operand : Derives .operand first)
      (steps : Derives .steps rest) : Derives .expression (first ++ rest)
  | done : Derives .steps []
  | step (op : Op) {next rest : List Token} (operand : Derives .operand next)
      (steps : Derives .steps rest) : Derives .steps (.op op :: (next ++ rest))
  | number (value : Nat) : Derives .operand [.number value]
  | group {inner : List Token} (expression : Derives .expression inner) :
      Derives .operand (.opening :: (inner ++ [.closing]))

/-- Whether the tokens of a symbol begin with an operand. -/
def Symbol.wanted : Symbol → Bool
  | expression => true
  | steps => false
  | operand => true

namespace Derives

variable {symbol : Symbol} {tokens more : List Token}

/-- The check comes past the tokens of a symbol at the depth at which it met them. -/
theorem checkShape_append (derived : Derives symbol tokens) (depth place : Nat) (rest : List Token) :
    checkShape depth symbol.wanted place (tokens ++ rest) =
      checkShape depth false (place + tokens.length) rest := by
  induction derived generalizing depth place rest with
  | expression _ _ ihOperand ihSteps =>
    rw [List.append_assoc, List.length_append, ← Nat.add_assoc]
    exact (ihOperand depth place _).trans (ihSteps depth _ rest)
  | done => rfl
  | step op _ _ ihOperand ihSteps =>
    rw [List.cons_append, List.append_assoc, List.length_cons, List.length_append,
      Nat.add_comm _ 1, ← Nat.add_assoc, ← Nat.add_assoc]
    exact (ihOperand depth (place + 1) _).trans (ihSteps depth _ rest)
  | number value => rfl
  | group _ ih =>
    rw [List.cons_append, List.append_assoc, List.length_cons, List.length_append,
      Nat.add_comm _ 1, ← Nat.add_assoc, ← Nat.add_assoc]
    exact ih (depth + 1) (place + 1) (.closing :: rest)

theorem expression_iff : Derives .expression tokens ↔
    ∃ first rest, Derives .operand first ∧ Derives .steps rest ∧ tokens = first ++ rest := by
  constructor
  · rintro ⟨operand, steps⟩
    exact ⟨_, _, operand, steps, rfl⟩
  · rintro ⟨first, rest, operand, steps, rfl⟩
    exact .expression operand steps

/-- Steps go on with further steps. -/
theorem steps_append (first : Derives .steps tokens) (second : Derives .steps more) :
    Derives .steps (tokens ++ more) := by
  generalize isSteps : Symbol.steps = symbol at first
  induction first with
  | expression | number | group => contradiction
  | done => exact second
  | step op operand _ _ ihSteps =>
    rw [List.cons_append, List.append_assoc]
    exact .step op operand (ihSteps isSteps)

end Derives

/-- The grammar derives the tokens of every tree. -/
theorem Expression.derives_tokens (tree : Expression) : Derives .expression tree.tokens := by
  induction tree with
  | number value => exact .expression (.number value) .done
  | group inner ih =>
    have whole : Derives .expression ((.opening :: (inner.tokens ++ [.closing])) ++ []) :=
      .expression (.group ih) .done
    rwa [List.append_nil] at whole
  | operation op left right ihLeft ihRight =>
    obtain ⟨first, steps, operand, more, isLeft⟩ := Derives.expression_iff.mp ihLeft
    obtain ⟨next, rest, nextOperand, last, isRight⟩ := Derives.expression_iff.mp ihRight
    rw [tokens, isLeft, isRight, List.append_assoc]
    exact .expression operand (more.steps_append (.step op nextOperand last))

/-- The check passes the token lists that the grammar derives, and no others. -/
theorem checkShape_eq_ok_iff {tokens : List Token} :
    checkShape 0 true 1 tokens = .ok () ↔ Derives .expression tokens := by
  constructor
  · intro shaped
    obtain ⟨tree, done⟩ := Expression.exists_read_of_checkShape flat shaped
    rw [← (Expression.read_eq_some_iff.mp done).2]
    exact tree.derives_tokens
  · intro derived
    have passed := derived.checkShape_append 0 1 []
    rwa [List.append_nil] at passed

/-- A token with which an operand ends. -/
def Token.Ends : Token → Prop
  | number _ => True
  | closing => True
  | _ => False

/-- A token with which an operand begins. -/
def Token.Begins : Token → Prop
  | number _ => True
  | opening => True
  | _ => False

/-- No operand follows another one without an operator, and no parentheses are empty. -/
def Token.Joins (first second : Token) : Prop :=
  ¬ (first.Ends ∧ second.Begins) ∧ ¬ (first = .opening ∧ second = .closing)

/-- All parentheses that open are closed, and none is closed before it opens. -/
def Balanced (tokens : List Token) : Prop :=
  tokens.count .closing = tokens.count .opening ∧
    ∀ length, (tokens.take length).count .closing ≤ (tokens.take length).count .opening

/-- A token that passes the check at a depth, with an operand wanted or not, and what follows it. -/
inductive Passes : Nat → Bool → Token → Nat → Bool → Prop where
  | number (depth value : Nat) : Passes depth true (.number value) depth false
  | opening (depth : Nat) : Passes depth true .opening (depth + 1) true
  | op (depth : Nat) (op : Op) : Passes depth false (.op op) depth true
  | closing (depth : Nat) : Passes (depth + 1) false .closing depth false

section Shape

variable {depth deeper place : Nat} {wanted next : Bool} {token : Token} {tokens : List Token}

theorem exists_passes_of_checkShape
    (shaped : checkShape depth wanted place (token :: tokens) = .ok ()) :
    ∃ deeper next, Passes depth wanted token deeper next ∧
      checkShape deeper next (place + 1) tokens = .ok () := by
  cases wanted with
  | true =>
    cases token with
    | number value => exact ⟨depth, false, .number depth value, shaped⟩
    | opening => exact ⟨depth + 1, true, .opening depth, shaped⟩
    | op op => contradiction
    | closing => contradiction
  | false =>
    cases token with
    | number value => contradiction
    | opening => contradiction
    | op op => exact ⟨depth, true, .op depth op, shaped⟩
    | closing =>
      cases depth with
      | zero => contradiction
      | succ depth => exact ⟨depth, false, .closing depth, shaped⟩

/-- Two tokens that pass one after the other may stand next to each other. -/
theorem Passes.joins {first second : Token} {last : Nat} {more : Bool}
    (one : Passes depth wanted first deeper next) (two : Passes deeper next second last more) :
    first.Joins second := by
  cases one <;> cases two <;> simp [Token.Joins, Token.Ends, Token.Begins]

theorem isChain_of_checkShape (shaped : checkShape depth wanted place tokens = .ok ()) :
    tokens.IsChain Token.Joins := by
  induction tokens generalizing depth wanted place with
  | nil => exact .nil
  | cons first tokens ih =>
    obtain ⟨deeper, next, passes, later⟩ := exists_passes_of_checkShape shaped
    cases tokens with
    | nil => exact .singleton first
    | cons second tokens =>
      obtain ⟨_, _, follows, _⟩ := exists_passes_of_checkShape later
      exact .cons_cons (passes.joins follows) (ih later)

/-- What passes the check closes the parentheses that it opens and those that were open, in no part
more than these. -/
theorem count_of_checkShape (shaped : checkShape depth wanted place tokens = .ok ()) :
    tokens.count .closing = tokens.count .opening + depth ∧ ∀ length,
      (tokens.take length).count .closing ≤ (tokens.take length).count .opening + depth := by
  induction tokens generalizing depth wanted place with
  | nil =>
    have closed : depth = 0 := by
      by_contra deep
      simp [checkShape, deep] at shaped
    simp [closed]
  | cons token tokens ih =>
    obtain ⟨deeper, next, passes, later⟩ := exists_passes_of_checkShape shaped
    obtain ⟨whole, parts⟩ := ih later
    constructor
    · cases passes <;> simp <;> omega
    · intro length
      cases length with
      | zero => simp
      | succ length =>
        have part := parts length
        cases passes <;> simp <;> omega

end Shape

/-- In what the grammar derives, operands that follow one another have an operator between them, no
parentheses are empty, and all are balanced. -/
theorem Derives.joins_and_balanced {tokens : List Token} (derived : Derives .expression tokens) :
    tokens.IsChain Token.Joins ∧ Balanced tokens := by
  have shaped := checkShape_eq_ok_iff.mpr derived
  exact ⟨isChain_of_checkShape shaped, count_of_checkShape shaped⟩

end PuzzleCalendar.Arithmetic
