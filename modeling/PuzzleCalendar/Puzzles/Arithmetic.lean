import PuzzleCalendar.Input
import PuzzleCalendar.Number.Literal
import PuzzleCalendar.Number.Width
import PuzzleCalendar.Puzzle
import PuzzleCalendar.Text.Slice

/-! # Sums of expressions

Expressions add and multiply numbers of 64 bits. How tight an operator binds is a parameter of the
evaluation, which keeps a stack of values and one of pending operators and open parentheses. An
operator that binds no tighter than a pending one lets that one go first.
-/

namespace PuzzleCalendar.Arithmetic

open Text

/-- Addition or multiplication. -/
inductive Op where
  | add
  | mul
deriving DecidableEq, Repr

/-- The name of an operator in messages. -/
def Op.name : Op → String
  | add => "Add"
  | mul => "Mul"

/-- One token of an expression. -/
inductive Token where
  | number (value : Nat)
  | op (op : Op)
  | opening
  | closing
deriving DecidableEq, Repr

/-- The name of a token in messages. -/
def Token.name : Token → String
  | number value => s!"Num({value})"
  | op operator => s!"Op({operator.name})"
  | opening => "Open"
  | closing => "Close"

/-- Why a line is no expression. -/
inductive ExpressionError where
  | character (char : Char)
  | number (error : Number.LiteralError)
  | unexpected (token : Token) (place : Nat)
  | incomplete
deriving DecidableEq, Repr

/-- The sentence that reports an expression error. -/
def ExpressionError.message : ExpressionError → String
  | character char => "unexpected character " ++ quotedChar char
  | number error => error.message
  | unexpected token place => s!"unexpected {token.name} at token {place}"
  | incomplete => "incomplete expression"

/-- Why an evaluation has no value. -/
inductive EvaluationError where
  | missingOperand (op : Op)
  | overflow (left : Nat) (op : Op) (right : Nat)
  | unbalancedClosing
  | unbalancedOpening
  | leftover (values : Nat)
deriving DecidableEq, Repr

/-- The sentence that reports an evaluation error. -/
def EvaluationError.message : EvaluationError → String
  | missingOperand op => s!"operator {op.name} is missing an operand"
  | overflow left op right => s!"overflow evaluating {left} {op.name} {right}"
  | unbalancedClosing => "unbalanced `)`"
  | unbalancedOpening => "unbalanced `(`"
  | leftover values => s!"expression left {values} values"

/-- An ASCII digit. -/
def isDigit (char : Char) : Bool := (Number.digit? char).isSome

/-- The token of a single byte, if it is one. -/
def symbol? (char : Char) : Option Token :=
  match char with
  | '+' => some (.op .add)
  | '*' => some (.op .mul)
  | '(' => some .opening
  | ')' => some .closing
  | _ => none

/-- The tokens of a line from its byte at `place` on. A number is the slice of its digits. -/
def scanFrom (line : Text) (place : Nat) : List UInt8 → Outcome ExpressionError (List Token)
  | [] => .ok []
  | byte :: rest =>
    if ofByte byte = ' ' then scanFrom line (place + 1) rest
    else if isDigit (ofByte byte) then do
      let digits := rest.takeWhile fun byte => isDigit (ofByte byte)
      let stop := place + 1 + digits.length
      let literal ← Outcome.orFault (slice? line place stop)
      let value ← (Outcome.ofExcept (Number.readUnsigned 64 literal)).mapReport ExpressionError.number
      let tokens ← scanFrom line stop (rest.dropWhile fun byte => isDigit (ofByte byte))
      pure (.number value :: tokens)
    else do
      let token ← Outcome.orReport (.character (ofByte byte)) (symbol? (ofByte byte))
      pure (token :: (← scanFrom line (place + 1) rest))
termination_by bytes => bytes.length
decreasing_by
  · exact Nat.lt_succ_self _
  · exact Nat.lt_succ_of_le (List.dropWhile_sublist _).length_le
  · exact Nat.lt_succ_self _

/-- Refuses the first token that cannot stand at its place. `depth` counts open parentheses, and
`wanted` says that an operand has to follow. -/
def checkShape (depth : Nat) (wanted : Bool) (place : Nat) : List Token → Except ExpressionError Unit
  | [] => if wanted || depth != 0 then .error .incomplete else .ok ()
  | token :: rest =>
    match token, wanted, depth with
    | .number _, true, _ => checkShape depth false (place + 1) rest
    | .opening, true, _ => checkShape (depth + 1) true (place + 1) rest
    | .op _, false, _ => checkShape depth true (place + 1) rest
    | .closing, false, outer + 1 => checkShape outer false (place + 1) rest
    | _, _, _ => .error (.unexpected token place)

/-- The tokens of a well-formed expression. -/
def tokenize (line : Text) : Outcome ExpressionError (List Token) := do
  let tokens ← scanFrom line 0 (bytes line)
  Outcome.ofExcept (checkShape 0 true 1 tokens)
  pure tokens

/-- The value of an operation, when 64 bits hold it. -/
def Op.apply (op : Op) (left right : Nat) : Except EvaluationError Nat :=
  let value := match op with
    | .add => left + right
    | .mul => left * right
  match Number.word64? value with
  | some value => .ok value
  | none => .error (.overflow left op right)

/-- Replaces the two topmost values by the value of an operation. -/
def reduce (op : Op) : List Nat → Except EvaluationError (List Nat)
  | right :: left :: values => (op.apply left right).map (· :: values)
  | _ => .error (.missingOperand op)

/-- A pending operator, or an open parenthesis. -/
abbrev Pending := Option Op

/-- Values and pending operators, the topmost first. -/
structure Stacks where
  values : List Nat
  pending : List Pending
deriving DecidableEq, Repr

/-- Carries out operations back to the open parenthesis. -/
def closeGroup (values : List Nat) : List Pending → Except EvaluationError Stacks
  | [] => .error .unbalancedClosing
  | none :: pending => .ok ⟨values, pending⟩
  | some op :: pending => do closeGroup (← reduce op values) pending

/-- Carries out the pending operations that bind at least as tight as `op`, which then waits. -/
def pushOp (precedence : Op → Nat) (op : Op) (values : List Nat) :
    List Pending → Except EvaluationError Stacks
  | some top :: pending =>
    if precedence top < precedence op then .ok ⟨values, some op :: some top :: pending⟩
    else do pushOp precedence op (← reduce top values) pending
  | pending => .ok ⟨values, some op :: pending⟩

/-- Carries out all pending operations. -/
def finish (values : List Nat) : List Pending → Except EvaluationError (List Nat)
  | [] => .ok values
  | none :: _ => .error .unbalancedOpening
  | some op :: pending => do finish (← reduce op values) pending

/-- Takes in one token. -/
def step (precedence : Op → Nat) (held : Stacks) : Token → Except EvaluationError Stacks
  | .number value => .ok { held with values := value :: held.values }
  | .opening => .ok { held with pending := none :: held.pending }
  | .closing => closeGroup held.values held.pending
  | .op op => pushOp precedence op held.values held.pending

/-- The value of an expression. -/
def evaluate (precedence : Op → Nat) (tokens : List Token) : Except EvaluationError Nat := do
  let held ← tokens.foldlM (step precedence) ⟨[], []⟩
  match ← finish held.values held.pending with
  | [value] => pure value
  | values => .error (.leftover values.length)

/-- All operators bind alike. -/
def flat : Op → Nat
  | _ => 0

/-- Addition binds tighter. -/
def additionFirst : Op → Nat
  | .add => 1
  | .mul => 0

/-- Multiplication binds tighter. -/
def multiplicationFirst : Op → Nat
  | .add => 0
  | .mul => 1

/-- The expressions of all lines. -/
def parse (text : Text) : Outcome ParseError (List (List Token)) :=
  Input.readFallibleLines (fun line => (tokenize line).mapReport ExpressionError.message) text

/-- The sum of the values of all expressions. -/
def sumAll (precedence : Op → Nat) (expressions : List (List Token)) :
    Outcome SolveError String := do
  let total ← expressions.foldlM (fun total tokens =>
    match evaluate precedence tokens with
    | .error error => Outcome.report (.solveFailed error.message)
    | .ok value =>
      Outcome.orReport (.solveFailed "sum of expressions overflows")
        (Number.word64? (total + value))) 0
  pure (toString total)

/-- The homework of sums and products. -/
def puzzle : Puzzle := Puzzle.ofParts parse (sumAll flat) (sumAll additionFirst)

end PuzzleCalendar.Arithmetic
