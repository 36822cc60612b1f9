import Mathlib.Tactic.ByContra
import PuzzleCalendar.Proofs.Arithmetic.Expression

/-! # Values of expressions

An evaluation with two stacks carries out the operations of a tree from the left, each after those
below it. With the tokens of a tree ahead it comes to where the value of the tree lies on top of the
stack, provided that the pending operator binds looser than the operators of the tree and the operator
that follows binds no tighter. So the value of well-formed tokens is the value of their tree, and the
only error is an operation whose result 64 bits do not hold.
-/

namespace PuzzleCalendar.Arithmetic

/-- The result of an operation on integers of any size. -/
def Op.exact : Op → Nat → Nat → Nat
  | add, left, right => left + right
  | mul, left, right => left * right

theorem Op.apply_eq (op : Op) (left right : Nat) : op.apply left right =
    if op.exact left right < 18446744073709551616 then .ok (op.exact left right)
    else .error (.overflow left op right) := by
  by_cases small : op.exact left right < 18446744073709551616
  · rw [if_pos small]
    cases op <;> simp only [exact] at small <;> simp only [apply, Number.word64?, exact, if_pos small]
  · rw [if_neg small]
    cases op <;> simp only [exact] at small <;> simp only [apply, Number.word64?, if_neg small]

theorem Op.apply_eq_ok_iff {op : Op} {left right value : Nat} :
    op.apply left right = .ok value ↔
      op.exact left right < 18446744073709551616 ∧ value = op.exact left right := by
  rw [apply_eq]
  split <;> simp [*, eq_comm]

theorem Op.apply_eq_error {op : Op} {left right : Nat} {error : EvaluationError}
    (failed : op.apply left right = .error error) : error = .overflow left op right := by
  rw [apply_eq] at failed
  split at failed
  · cases failed
  · exact (Except.error.inj failed).symm

namespace Expression

/-- The value of an expression, when 64 bits hold the result of each operation. -/
def value : Expression → Except EvaluationError Nat
  | number value => .ok value
  | group inner => inner.value
  | operation op left right => do op.apply (← left.value) (← right.value)

/-- The value of an expression in integers of any size. -/
def exact : Expression → Nat
  | number value => value
  | group inner => inner.exact
  | operation op left right => op.exact left.exact right.exact

/-- Some operation of the expression has a result that 64 bits do not hold. -/
def Overflows : Expression → Prop
  | number _ => False
  | group inner => inner.Overflows
  | operation op left right =>
    left.Overflows ∨ right.Overflows ∨ 18446744073709551616 ≤ op.exact left.exact right.exact

/-- An expression has a value unless it overflows, and that value is exact. -/
theorem value_eq_ok_iff {tree : Expression} {value : Nat} :
    tree.value = .ok value ↔ ¬ tree.Overflows ∧ value = tree.exact := by
  induction tree generalizing value with
  | number known => simp [Expression.value, Overflows, exact, eq_comm]
  | group inner ih => exact ih
  | operation op left right ihLeft ihRight =>
    simp only [Expression.value, bind_eq_ok_iff, ihLeft, ihRight, Op.apply_eq_ok_iff, Overflows, exact,
      not_or, Nat.not_le]
    constructor
    · rintro ⟨_, ⟨leftHolds, rfl⟩, _, ⟨rightHolds, rfl⟩, small, rfl⟩
      exact ⟨⟨leftHolds, rightHolds, small⟩, rfl⟩
    · rintro ⟨⟨leftHolds, rightHolds, small⟩, rfl⟩
      exact ⟨_, ⟨leftHolds, rfl⟩, _, ⟨rightHolds, rfl⟩, small, rfl⟩

/-- The only error of an expression is the overflow of an operation. -/
theorem value_eq_error {tree : Expression} {error : EvaluationError}
    (failed : tree.value = .error error) : ∃ left op right, error = .overflow left op right := by
  induction tree with
  | number known => cases failed
  | group inner ih => exact ih failed
  | operation op left right ihLeft ihRight =>
    rw [value] at failed
    cases one : left.value with
    | error reason =>
      rw [one] at failed
      cases failed
      exact ihLeft one
    | ok first =>
      cases two : right.value with
      | error reason =>
        rw [one, two] at failed
        cases failed
        exact ihRight two
      | ok second =>
        rw [one, two] at failed
        exact ⟨first, op, second, Op.apply_eq_error failed⟩

end Expression

open Expression

/-- What is left of an evaluation that has come to these stacks. -/
def resume (precedence : Op → Nat) (tokens : List Token) (held : Stacks) :
    Except EvaluationError Nat := do
  let held ← tokens.foldlM (step precedence) held
  match ← finish held.values held.pending with
  | [value] => pure value
  | values => .error (.leftover values.length)

/-- What follows leaves the last operand to the operators of a tree. -/
def Follows (precedence : Op → Nat) (operators : List Op) : List Token → Prop
  | [] => True
  | .closing :: _ => True
  | .op next :: _ => ∀ op ∈ operators, precedence next ≤ precedence op
  | _ => False

/-- What is pending leaves the first operand to the operators of a tree. -/
def Waits (precedence : Op → Nat) (operators : List Op) : List Pending → Prop
  | some top :: _ => ∀ op ∈ operators, precedence top < precedence op
  | _ => True

variable {precedence : Op → Nat}

theorem Follows.mono {some all : List Op} {rest : List Token} (follows : Follows precedence all rest)
    (subset : ∀ op ∈ some, op ∈ all) : Follows precedence some rest := by
  cases rest with
  | nil => trivial
  | cons token rest =>
    cases token with
    | op next => exact fun op member => follows op (subset op member)
    | closing => trivial
    | number value => exact follows
    | opening => exact follows

theorem Waits.mono {some all : List Op} {pending : List Pending} (waits : Waits precedence all pending)
    (subset : ∀ op ∈ some, op ∈ all) : Waits precedence some pending := by
  cases pending with
  | nil => trivial
  | cons top pending =>
    cases top with
    | none => trivial
    | some top => exact fun op member => waits op (subset op member)

theorem resume_cons (token : Token) (rest : List Token) (held : Stacks) :
    resume precedence (token :: rest) held = step precedence held token >>= resume precedence rest := by
  simp only [resume, List.foldlM_cons, bind_assoc]
  rfl

/-- The pending operation is carried out before what follows. -/
theorem resume_reduce {op : Op} {rest : List Token} (follows : Follows precedence [op] rest)
    (left right : Nat) (values : List Nat) (pending : List Pending) :
    resume precedence rest ⟨right :: left :: values, some op :: pending⟩ =
      op.apply left right >>= fun value => resume precedence rest ⟨value :: values, pending⟩ := by
  have reduced : reduce op (right :: left :: values) =
      op.apply left right >>= fun value => .ok (value :: values) := rfl
  cases rest with
  | nil =>
    simp only [resume, List.foldlM_nil, pure_bind, finish, reduced, bind_assoc]
    rfl
  | cons token rest =>
    simp only [resume_cons]
    cases token with
    | number value => exact absurd follows id
    | opening => exact absurd follows id
    | closing =>
      simp only [step, closeGroup, reduced, bind_assoc]
      rfl
    | op next =>
      have loose : ¬ precedence op < precedence next := by
        have := follows op (List.mem_singleton.mpr rfl)
        omega
      simp only [step, pushOp, if_neg loose, reduced, bind_assoc]
      rfl

/-- An evaluation comes past the tokens of a tree with the value of the tree on top of its stack. -/
theorem resume_tokens {tree : Expression} (obeys : tree.Obeys precedence) {rest : List Token}
    (follows : Follows precedence tree.operators rest) (values : List Nat) {pending : List Pending}
    (waits : Waits precedence tree.operators pending) :
    resume precedence (tree.tokens ++ rest) ⟨values, pending⟩ =
      tree.value >>= fun value => resume precedence rest ⟨value :: values, pending⟩ := by
  induction tree generalizing rest values pending with
  | number value => exact resume_cons _ _ _
  | group inner ih =>
    calc
      resume precedence ((group inner).tokens ++ rest) ⟨values, pending⟩
        = resume precedence (inner.tokens ++ .closing :: rest) ⟨values, none :: pending⟩ := by
          rw [tokens, List.cons_append, List.append_assoc, resume_cons]
          rfl
      _ = inner.value >>= fun value =>
          resume precedence (.closing :: rest) ⟨value :: values, none :: pending⟩ :=
        ih obeys (show Follows precedence inner.operators (.closing :: rest) from trivial) values trivial
      _ = (group inner).value >>= fun value => resume precedence rest ⟨value :: values, pending⟩ := by
          simp only [resume_cons]
          rfl
  | operation op left right ihLeft ihRight =>
    obtain ⟨leftObeys, rightObeys, leftTight, rightTight⟩ := obeys
    have mem_op : op ∈ (operation op left right).operators := by simp [operators]
    have pushed (value : Nat) : step precedence ⟨value :: values, pending⟩ (.op op) =
        .ok ⟨value :: values, some op :: pending⟩ := by
      cases pending with
      | nil => rfl
      | cons top pending =>
        cases top with
        | none => rfl
        | some top => exact if_pos (waits op mem_op)
    have leftFollows : Follows precedence left.operators (.op op :: (right.tokens ++ rest)) :=
      leftTight
    have rightFollows : Follows precedence right.operators rest :=
      follows.mono fun other member => by simp [operators, member]
    have rightWaits : Waits precedence right.operators (some op :: pending) := rightTight
    -- What follows the operation also follows its operator, which it therefore carries out.
    have opFollows : Follows precedence [op] rest :=
      follows.mono fun other member => List.mem_singleton.mp member ▸ mem_op
    calc
      resume precedence ((operation op left right).tokens ++ rest) ⟨values, pending⟩
        = left.value >>= fun first =>
          resume precedence (.op op :: (right.tokens ++ rest)) ⟨first :: values, pending⟩ := by
          rw [tokens, List.append_assoc]
          exact ihLeft leftObeys leftFollows values
            (waits.mono fun other member => by simp [operators, member])
      _ = left.value >>= fun first =>
          resume precedence (right.tokens ++ rest) ⟨first :: values, some op :: pending⟩ := by
          simp only [resume_cons, pushed]
          rfl
      _ = left.value >>= fun first => right.value >>= fun second =>
          resume precedence rest ⟨second :: first :: values, some op :: pending⟩ := by
          simp only [ihRight rightObeys rightFollows _ rightWaits]
      _ = left.value >>= fun first => right.value >>= fun second => op.apply first second >>=
          fun value => resume precedence rest ⟨value :: values, pending⟩ := by
          simp only [resume_reduce opFollows]
      _ = (operation op left right).value >>= fun value =>
          resume precedence rest ⟨value :: values, pending⟩ := by
          simp only [value, bind_assoc]

/-- The evaluation of the tokens of a tree gives the value of the tree, or its error. -/
theorem evaluate_tokens {tree : Expression} (obeys : tree.Obeys precedence) :
    evaluate precedence tree.tokens = tree.value := by
  have passed := resume_tokens obeys (show Follows precedence tree.operators [] from trivial) []
    (show Waits precedence tree.operators [] from trivial)
  rw [List.append_nil] at passed
  calc
    evaluate precedence tree.tokens
      = tree.value >>= fun value => resume precedence [] ⟨[value], []⟩ := passed
    _ = tree.value >>= pure := rfl
    _ = tree.value := bind_pure _

/-- Well-formed tokens are written from exactly one tree that obeys the precedence, and are evaluated
as that tree: to its value in 64 bits, which is exact, or to an error when an operation of the tree
overflows, and then to no other kind of error. -/
theorem evaluate_eq_value_of_checkShape {tokens : List Token}
    (shaped : checkShape 0 true 1 tokens = .ok ()) (precedence : Op → Nat) :
    ∃ tree : Expression, (tree.Obeys precedence ∧ tree.tokens = tokens) ∧
      (∀ other : Expression, other.Obeys precedence ∧ other.tokens = tokens → other = tree) ∧
      evaluate precedence tokens = tree.value ∧
      (∀ value, evaluate precedence tokens = .ok value ↔ ¬ tree.Overflows ∧ value = tree.exact) ∧
      ((∃ error, evaluate precedence tokens = .error error) ↔ tree.Overflows) ∧
      ∀ error, evaluate precedence tokens = .error error →
        ∃ left op right, error = .overflow left op right := by
  obtain ⟨tree, done⟩ := exists_read_of_checkShape precedence shaped
  obtain ⟨obeys, rfl⟩ := read_eq_some_iff.mp done
  refine ⟨tree, ⟨obeys, rfl⟩, fun other same => ?_, evaluate_tokens obeys, ?_⟩
  · rw [← read_eq_some_iff, done, Option.some_inj] at same
    exact same.symm
  rw [evaluate_tokens obeys]
  refine ⟨fun value => value_eq_ok_iff, ?_, fun error => value_eq_error⟩
  cases outcome : tree.value with
  | ok value =>
    have holds := (value_eq_ok_iff.mp outcome).1
    simp [holds]
  | error reason =>
    have overflows : tree.Overflows := by
      by_contra holds
      have found := value_eq_ok_iff.mpr ⟨holds, rfl⟩
      simp [outcome] at found
    simp [overflows]

/-- The tokens of `2 * 3 + (4 * 5) * 6`. -/
def mixed : List Token :=
  [.number 2, .op .mul, .number 3, .op .add, .opening, .number 4, .op .mul, .number 5, .closing,
    .op .mul, .number 6]

theorem evaluate_mixed : checkShape 0 true 1 mixed = .ok () ∧
    evaluate additionFirst mixed = .ok 276 ∧
    ∃ tree : Expression, (tree.Obeys additionFirst ∧ tree.tokens = mixed) ∧
      (∀ other : Expression, other.Obeys additionFirst ∧ other.tokens = mixed → other = tree) ∧
      evaluate additionFirst mixed = tree.value ∧
      (∀ value, evaluate additionFirst mixed = .ok value ↔ ¬ tree.Overflows ∧ value = tree.exact) ∧
      ((∃ error, evaluate additionFirst mixed = .error error) ↔ tree.Overflows) ∧
      ∀ error, evaluate additionFirst mixed = .error error →
        ∃ left op right, error = .overflow left op right :=
  ⟨rfl, rfl, evaluate_eq_value_of_checkShape rfl additionFirst⟩

end PuzzleCalendar.Arithmetic
