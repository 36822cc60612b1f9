import PuzzleCalendar.Puzzles.Arithmetic

/-! # Expressions as trees

A tree obeys a precedence when every operator outside parentheses binds no tighter than those to its
left and looser than those to its right. So higher precedence binds tighter, and equal precedence
associates to the left. A reader hangs each operand, as it comes, to the right side of the tree read so
far. It gives a tree exactly when that tree obeys and is written with the tokens, so well-formed tokens
have one tree.
-/

namespace PuzzleCalendar.Arithmetic

/-- A number, an expression in parentheses, or an operation. -/
inductive Expression where
  | number (value : Nat)
  | group (inner : Expression)
  | operation (op : Op) (left right : Expression)
deriving DecidableEq, Repr

namespace Expression

/-- The tokens that write an expression. -/
def tokens : Expression → List Token
  | number value => [.number value]
  | group inner => .opening :: (inner.tokens ++ [.closing])
  | operation op left right => left.tokens ++ .op op :: right.tokens

/-- The operators outside parentheses, from left to right. -/
def operators : Expression → List Op
  | operation op left right => left.operators ++ op :: right.operators
  | _ => []

/-- Higher precedence binds tighter and equal precedence associates to the left. -/
def Obeys (precedence : Op → Nat) : Expression → Prop
  | number _ => True
  | group inner => inner.Obeys precedence
  | operation op left right => left.Obeys precedence ∧ right.Obeys precedence ∧
      (∀ other ∈ left.operators, precedence op ≤ precedence other) ∧
      ∀ other ∈ right.operators, precedence op < precedence other

/-- The tree with a further operator and operand at its right end. They go below the operators that
bind looser. -/
def attach (precedence : Op → Nat) (tree : Expression) (op : Op) (operand : Expression) : Expression :=
  match tree with
  | operation top left right =>
    if precedence top < precedence op then operation top left (right.attach precedence op operand)
    else operation op (operation top left right) operand
  | tree => operation op tree operand

variable {precedence : Op → Nat} {op : Op} {operand tree : Expression}

@[simp] theorem tokens_attach :
    (tree.attach precedence op operand).tokens = tree.tokens ++ .op op :: operand.tokens := by
  fun_induction Expression.attach precedence tree op operand with
  | case1 top left right looser ih => simp [tokens, ih]
  | case2 top left right => simp [tokens]
  | case3 tree => simp [tokens]

@[simp] theorem operators_attach :
    (tree.attach precedence op operand).operators = tree.operators ++ op :: operand.operators := by
  fun_induction Expression.attach precedence tree op operand with
  | case1 top left right looser ih => simp [operators, ih]
  | case2 top left right => simp [operators]
  | case3 tree => simp [operators]

theorem Obeys.attach (obeys : tree.Obeys precedence) (operandObeys : operand.Obeys precedence)
    (single : operand.operators = []) : (tree.attach precedence op operand).Obeys precedence := by
  fun_induction Expression.attach precedence tree op operand with
  | case1 top left right looser ih =>
    obtain ⟨leftObeys, rightObeys, leftTight, rightTight⟩ := obeys
    refine ⟨leftObeys, ih rightObeys, leftTight, fun other member => ?_⟩
    rw [operators_attach, single, List.mem_append, List.mem_singleton] at member
    rcases member with inside | rfl
    · exact rightTight other inside
    · exact looser
  | case2 top left right tighter =>
    have ⟨_, _, leftTight, rightTight⟩ := obeys
    refine ⟨obeys, operandObeys, fun other member => ?_, by simp [single]⟩
    rw [operators, List.mem_append, List.mem_cons] at member
    rcases member with inside | rfl | inside
    · have := leftTight other inside
      omega
    · omega
    · have := rightTight other inside
      omega
  | case3 tree atom =>
    refine ⟨obeys, operandObeys, fun other member => ?_, by simp [single]⟩
    cases tree with
    | operation top left right => exact absurd rfl (atom top left right)
    | _ => simp [operators] at member

/-- An operator that binds no tighter than those of the tree takes all of it as its left operand. -/
theorem attach_eq (loose : ∀ other ∈ tree.operators, precedence op ≤ precedence other) :
    tree.attach precedence op operand = operation op tree operand := by
  cases tree with
  | operation top left right =>
    have := loose top (by simp [operators])
    exact if_neg (by omega)
  | _ => rfl

/-- What stands before an operand: nothing, or a tree and an operator. -/
abbrev Lead := Option (Expression × Op)

/-- The tokens of a lead. -/
def Lead.tokens : Lead → List Token
  | none => []
  | some (tree, op) => tree.tokens ++ [.op op]

/-- The tree of a lead and its operand. -/
def Lead.put (precedence : Op → Nat) (lead : Lead) (operand : Expression) : Expression :=
  match lead with
  | none => operand
  | some (tree, op) => tree.attach precedence op operand

/-- The tree of a lead obeys the precedence. -/
def Lead.Obeys (precedence : Op → Nat) (lead : Lead) : Prop :=
  ∀ before ∈ lead, before.1.Obeys precedence

@[simp] theorem Lead.tokens_put {lead : Lead} :
    (lead.put precedence operand).tokens = lead.tokens ++ operand.tokens := by
  cases lead with
  | none => rfl
  | some before => simp [put, Lead.tokens]

theorem Lead.Obeys.put {lead : Lead} (obeys : lead.Obeys precedence)
    (operandObeys : operand.Obeys precedence) (single : operand.operators = []) :
    (lead.put precedence operand).Obeys precedence := by
  cases lead with
  | none => exact operandObeys
  | some before => exact (obeys before rfl).attach operandObeys single

/-- Where a reader stands: before an operand, or after the tree of the operands so far. -/
inductive Progress where
  | awaiting (lead : Lead)
  | holding (tree : Expression)

/-- The tokens read so far, back to the last open parenthesis. -/
def Progress.tokens : Progress → List Token
  | awaiting lead => lead.tokens
  | holding tree => tree.tokens

/-- What was read so far obeys the precedence. -/
def Progress.Obeys (precedence : Op → Nat) : Progress → Prop
  | awaiting lead => lead.Obeys precedence
  | holding tree => tree.Obeys precedence

/-- Whether an operand has to follow. -/
def Progress.wanted : Progress → Bool
  | awaiting _ => true
  | holding _ => false

/-- Reads on. `outer` holds what stands before each open parenthesis, the last one first. -/
def readOn (precedence : Op → Nat) :
    List Lead → Progress → List Token → Option Expression
  | outer, .awaiting lead, .number value :: rest =>
    readOn precedence outer (.holding (lead.put precedence (number value))) rest
  | outer, .awaiting lead, .opening :: rest => readOn precedence (lead :: outer) (.awaiting none) rest
  | outer, .holding tree, .op op :: rest => readOn precedence outer (.awaiting (some (tree, op))) rest
  | lead :: outer, .holding tree, .closing :: rest =>
    readOn precedence outer (.holding (lead.put precedence (group tree))) rest
  | [], .holding tree, [] => some tree
  | _, _, _ => none

/-- The tree of an expression. -/
def read (precedence : Op → Nat) (tokens : List Token) : Option Expression :=
  readOn precedence [] (.awaiting none) tokens

/-- The tokens before the last open parenthesis, with the parentheses. -/
def outerTokens (outer : List Lead) : List Token :=
  outer.reverse.flatMap fun lead => lead.tokens ++ [.opening]

@[simp] theorem outerTokens_cons (lead : Lead) (outer : List Lead) :
    outerTokens (lead :: outer) = outerTokens outer ++ (lead.tokens ++ [.opening]) := by
  simp [outerTokens]

/-- What is read obeys the precedence and is written with the tokens. -/
theorem obeys_of_readOn {outer : List Lead} {progress : Progress} {rest : List Token}
    (outerObeys : ∀ lead ∈ outer, lead.Obeys precedence) (obeys : progress.Obeys precedence)
    (done : readOn precedence outer progress rest = some tree) :
    tree.Obeys precedence ∧ tree.tokens = outerTokens outer ++ (progress.tokens ++ rest) := by
  fun_induction readOn precedence outer progress rest with
  | case1 outer lead value rest ih =>
    obtain ⟨wholeObeys, written⟩ := ih outerObeys (obeys.put trivial rfl) done
    refine ⟨wholeObeys, written.trans ?_⟩
    simp [Progress.tokens, tokens]
  | case2 outer lead rest ih =>
    have fresh : (Progress.awaiting none).Obeys precedence := by simp [Progress.Obeys, Lead.Obeys]
    obtain ⟨wholeObeys, written⟩ := ih (List.forall_mem_cons.mpr ⟨obeys, outerObeys⟩) fresh done
    refine ⟨wholeObeys, written.trans ?_⟩
    simp [Progress.tokens, Lead.tokens]
  | case3 outer held op rest ih =>
    obtain ⟨wholeObeys, written⟩ := ih outerObeys (by rintro _ ⟨⟩; exact obeys) done
    refine ⟨wholeObeys, written.trans ?_⟩
    simp [Progress.tokens, Lead.tokens]
  | case4 lead outer held rest ih =>
    obtain ⟨leadObeys, restObeys⟩ := List.forall_mem_cons.mp outerObeys
    obtain ⟨wholeObeys, written⟩ := ih restObeys (leadObeys.put obeys rfl) done
    refine ⟨wholeObeys, written.trans ?_⟩
    simp [Progress.tokens, tokens]
  | case5 held =>
    cases done
    exact ⟨obeys, by simp [Progress.tokens, outerTokens]⟩
  | case6 => contradiction

/-- Well-formed tokens can be read. -/
theorem exists_readOn_of_checkShape (outer : List Lead) (progress : Progress) {rest : List Token}
    {place : Nat} (shaped : checkShape outer.length progress.wanted place rest = .ok ()) :
    ∃ tree, readOn precedence outer progress rest = some tree := by
  induction rest generalizing outer progress place with
  | nil =>
    cases progress with
    | awaiting lead => simp [checkShape, Progress.wanted] at shaped
    | holding held =>
      cases outer with
      | nil => exact ⟨held, rfl⟩
      | cons lead outer => simp [checkShape, Progress.wanted] at shaped
  | cons token rest ih =>
    cases progress with
    | awaiting lead =>
      cases token with
      | number value => exact ih outer (.holding _) shaped
      | opening => exact ih (lead :: outer) (.awaiting none) shaped
      | op op => contradiction
      | closing => contradiction
    | holding held =>
      cases token with
      | number value => contradiction
      | opening => contradiction
      | op op => exact ih outer (.awaiting _) shaped
      | closing =>
        cases outer with
        | nil => contradiction
        | cons lead outer => exact ih outer (.holding _) shaped

/-- The tree that is read when a tree follows a lead. -/
def graft (precedence : Op → Nat) (lead : Lead) : Expression → Expression
  | operation op left right => graft precedence (some (graft precedence lead left, op)) right
  | operand => lead.put precedence operand

/-- A tree whose operators all bind tighter than the one at the root goes below it. -/
theorem graft_operation {top : Op} {left inner : Expression} (below : precedence top < precedence op)
    (tight : ∀ other ∈ tree.operators, precedence top < precedence other) :
    graft precedence (some (operation top left inner, op)) tree =
      operation top left (graft precedence (some (inner, op)) tree) := by
  induction tree generalizing op inner with
  | number value => exact if_pos below
  | group inside => exact if_pos below
  | operation other one two ihOne ihTwo =>
    simp only [operators, List.mem_append, List.mem_cons] at tight
    rw [graft, graft, ihOne below fun o member => tight o (.inl member),
      ihTwo (tight other (.inr (.inl rfl))) fun o member => tight o (.inr (.inr member))]

/-- A tree that obeys is read back after its left operand and its operator. -/
theorem graft_some {left : Expression} (obeys : (operation op left tree).Obeys precedence) :
    graft precedence (some (left, op)) tree = operation op left tree := by
  induction tree generalizing op left with
  | number value => exact attach_eq obeys.2.2.1
  | group inside => exact attach_eq obeys.2.2.1
  | operation other one two ihOne ihTwo =>
    obtain ⟨leftObeys, treeObeys, leftTight, rightTight⟩ := obeys
    simp only [operators, List.mem_append, List.mem_cons] at rightTight
    have oneObeys : (operation op left one).Obeys precedence :=
      ⟨leftObeys, treeObeys.1, leftTight, fun o member => rightTight o (.inl member)⟩
    rw [graft, ihOne oneObeys, graft_operation (rightTight other (.inr (.inl rfl)))
      fun o member => rightTight o (.inr (.inr member)), ihTwo treeObeys]

theorem graft_none (obeys : tree.Obeys precedence) : graft precedence none tree = tree := by
  induction tree with
  | number value => rfl
  | group inner => rfl
  | operation op left right ihLeft _ =>
    rw [graft, ihLeft obeys.1, graft_some obeys]

/-- Reading the tokens of a tree. -/
theorem readOn_tokens (obeys : tree.Obeys precedence) (outer : List Lead) (lead : Lead)
    (rest : List Token) : readOn precedence outer (.awaiting lead) (tree.tokens ++ rest) =
      readOn precedence outer (.holding (graft precedence lead tree)) rest := by
  -- The right side of an operation is read after a lead that its left side makes.
  induction tree generalizing outer lead rest with
  | number value => rfl
  | group inner ih =>
    have innerObeys : inner.Obeys precedence := obeys
    rw [tokens, List.cons_append, List.append_assoc, readOn, ih innerObeys, graft_none innerObeys]
    rfl
  | operation op left right ihLeft ihRight =>
    rw [tokens, List.append_assoc, ihLeft obeys.1, List.cons_append, readOn, ihRight obeys.2.1]
    rfl

/-- The reader finds the tree that obeys the precedence and is written with the tokens. -/
theorem read_eq_some_iff {tokens : List Token} :
    read precedence tokens = some tree ↔ tree.Obeys precedence ∧ tree.tokens = tokens := by
  constructor
  · intro done
    exact obeys_of_readOn (by simp) (by simp [Progress.Obeys, Lead.Obeys]) done
  · rintro ⟨obeys, rfl⟩
    have steps := readOn_tokens obeys [] none []
    rw [List.append_nil, graft_none obeys] at steps
    exact steps

example : read additionFirst [.number 2, .op .mul, .number 3, .op .add, .number 4] =
    some (operation .mul (number 2) (operation .add (number 3) (number 4))) := by decide

theorem exists_read_of_checkShape (precedence : Op → Nat) {tokens : List Token}
    (shaped : checkShape 0 true 1 tokens = .ok ()) : ∃ tree, read precedence tokens = some tree :=
  exists_readOn_of_checkShape [] (.awaiting none) shaped

end Expression

end PuzzleCalendar.Arithmetic
