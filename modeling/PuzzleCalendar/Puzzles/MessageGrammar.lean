import PuzzleCalendar.Input
import PuzzleCalendar.Marks
import PuzzleCalendar.Number.Literal
import PuzzleCalendar.Puzzle

/-! # Message grammars

A grammar numbers its rules. A rule is one byte, or a choice between sequences of rules, and a message
matches when rule 0 can end at its end. The matcher keeps every place where a rule can end, so that
choices and recursion need no backtracking. Where a rule is entered again at the place where it is being
matched, that branch is given up: each entry takes a pair of rule and place out of those that may still
be entered, and so matching ends for every grammar. The active rules pass from one match to the next,
and every match leaves them as it found them.
-/

namespace PuzzleCalendar.MessageGrammar

open Text

/-- One rule of a grammar. -/
inductive Rule where
  | terminal (byte : UInt8)
  | choice (alternatives : List (List Nat))
deriving DecidableEq, Repr

/-- Numbered rules; of two rules with one number the first one counts. -/
structure Grammar where
  rules : List (Nat × Rule)
deriving DecidableEq, Repr

/-- The places that a matching reached, and the rules that are active after it, each with the place at
which it was entered. They are the ones that were active before it. -/
structure Reached (before : List (Nat × Nat)) where
  places : List Nat
  active : List (Nat × Nat)
  kept : active = before

namespace Reached

variable {before : List (Nat × Nat)}

/-- Matches something from every reached place in turn and merges what that reaches. -/
def fromEach (enter : (active : List (Nat × Nat)) → active = before → Nat → Reached active)
    (reached : Reached before) : Reached before :=
  reached.places.foldl (fun next place =>
    let ended := enter next.active next.kept place
    ⟨merged next.places ended.places, ended.active, ended.kept.trans next.kept⟩)
    ⟨[], reached.active, reached.kept⟩

/-- Matches the rules of a sequence one after the other, each from every place reached so far. -/
def along (enter : (active : List (Nat × Nat)) → active = before → Nat → Nat → Reached active)
    (sequence : List Nat) (reached : Reached before) : Reached before :=
  sequence.foldl (fun reached part =>
    reached.fromEach fun active kept place => enter active kept part place) reached

/-- Matches every alternative from one place and merges what they reach. -/
def amongst (enter : (active : List (Nat × Nat)) → active = before → Nat → Nat → Reached active)
    (alternatives : List (List Nat)) (start : Nat) : Reached before :=
  alternatives.foldl (fun found sequence =>
    let ended := along enter sequence ⟨[start], found.active, found.kept⟩
    ⟨merged found.places ended.places, ended.active, ended.kept⟩) ⟨[], before, rfl⟩

/-- What a rule reached, once it is active no more. -/
def leave {entry : Nat × Nat} (reached : Reached (entry :: before)) : Reached before :=
  ⟨reached.places, reached.active.erase entry, by rw [reached.kept, List.erase_cons_head]⟩

end Reached

namespace Grammar

/-- The rule with a number. -/
def rule? (grammar : Grammar) (id : Nat) : Option Rule :=
  grammar.rules.lookup id

/-- The rules and the places of a message at which they can be entered. -/
def entries (grammar : Grammar) (length : Nat) : List (Nat × Nat) :=
  grammar.rules.flatMap fun rule => (List.range length).map (rule.1, ·)

theorem mem_rules_of_rule? {grammar : Grammar} {id : Nat} {rule : Rule}
    (found : grammar.rule? id = some rule) : (id, rule) ∈ grammar.rules := by
  unfold rule? at found
  generalize grammar.rules = rules at found
  induction rules with
  | nil => simp at found
  | cons head rest ih =>
    obtain ⟨number, first⟩ := head
    by_cases same : id = number
    · subst same
      simp at found
      simp [found]
    · have other : (id == number) = false := by simpa using same
      simp only [List.lookup_cons, other] at found
      exact List.mem_cons_of_mem _ (ih found)

theorem mem_entries {grammar : Grammar} {id start length : Nat} {rule : Rule}
    (found : grammar.rule? id = some rule) (within : start < length) :
    (id, start) ∈ grammar.entries length := by
  simp only [entries, List.mem_flatMap, List.mem_map, List.mem_range, Prod.mk.injEq]
  exact ⟨(id, rule), mem_rules_of_rule? found, start, within, rfl, rfl⟩

/-- The places where a match of the rule `id` from the place `start` can end. A rule that is active at
this place is being matched already. Otherwise it is active while its alternatives are matched. -/
def ends (grammar : Grammar) (message : Array UInt8) (active : List (Nat × Nat))
    (id start : Nat) : Reached active :=
  if within : start < message.size then
    match found : grammar.rule? id with
    | none => ⟨[], active, rfl⟩
    | some (.terminal byte) =>
      ⟨if message[start] = byte then [start + 1] else [], active, rfl⟩
    | some (.choice alternatives) =>
      if fresh : (id, start) ∈ active then ⟨[], active, rfl⟩
      else
        let reached := Reached.amongst (fun entered (kept : entered = (id, start) :: active) part place =>
          ends grammar message entered part place) alternatives start
        reached.leave
  else ⟨[], active, rfl⟩
termination_by unmarked (grammar.entries message.size) active
decreasing_by
  subst kept
  exact unmarked_cons_lt (mem_entries found within) fresh

/-- Rule 0 can end at the end of the message. -/
def accepts (grammar : Grammar) (message : Text) : Bool :=
  let bytes := (bytes message).toArray
  (grammar.ends bytes [] 0 0).places.contains bytes.size

/-- The grammar with the looping forms of the rules 8 and 11, or the rule that they lack. -/
def withLoops (grammar : Grammar) : Except Nat Grammar :=
  match [42, 31].find? fun id => (grammar.rule? id).isNone with
  | some missing => .error missing
  | none =>
    .ok ⟨(8, .choice [[42], [42, 8]]) :: (11, .choice [[42, 31], [42, 11, 31]]) :: grammar.rules⟩

end Grammar

/-- Why a line is no rule. -/
inductive RuleError where
  | shape (line : Text)
  | number
  | terminal (literal : Text)
  | reference (word : Text)
  | emptyAlternative (id : Nat)
deriving DecidableEq, Repr

/-- The sentence that reports a rule error. -/
def RuleError.message : RuleError → String
  | shape line => "expected `<id>: <rule>`, got " ++ quoted line
  | number => "bad rule id"
  | terminal literal => "terminal must be one character, got " ++ quoted literal
  | reference word => "bad rule reference " ++ quoted word
  | emptyAlternative id => s!"empty alternative in rule {id}"

/-- Reads the number of a rule inside a sequence. -/
def readReference (word : Text) : Except RuleError Nat :=
  (Number.readUnsigned 32 word).mapError fun _ => .reference word

/-- Reads what follows the colon: a byte in double quotes or a choice. -/
def readBody (id : Nat) (body : Text) : Except RuleError Rule :=
  match dropLead? ['"'] body >>= dropTail? ['"'] with
  | some literal =>
    match bytes literal with
    | [byte] => .ok (.terminal byte)
    | _ => .error (.terminal literal)
  | none => do
    let alternatives ← (splitAll '|' body).mapM fun sequence => (words sequence).mapM readReference
    if alternatives.any List.isEmpty then .error (.emptyAlternative id)
    else pure (.choice alternatives)

/-- Reads one rule with its number. -/
def readRule (line : Text) : Except RuleError (Nat × Rule) :=
  match splitOnce? ':' line with
  | none => .error (.shape line)
  | some (id, body) => do
    let id ← (Number.readUnsigned 32 (trim id)).mapError fun _ => RuleError.number
    pure (id, ← readBody id (trim body))

/-- A grammar and the messages to match. -/
structure Inbox where
  grammar : Grammar
  messages : List Text
deriving DecidableEq, Repr

/-- The rules in the first block and the messages in the second one. A later rule replaces an earlier
one with its number. -/
def parse (text : Text) : Outcome ParseError Inbox :=
  Outcome.ofExcept <|
    match Input.blocks text with
    | [] => .error (.missingData "grammar rules")
    | ruleLines :: sections => do
      let rules ← Input.collect (m := Id)
        (fun line => pure ((readRule line).mapError RuleError.message)) 1 ruleLines
      let grammar : Grammar := ⟨rules.reverse⟩
      if (grammar.rule? 0).isNone then .error (.missingData "rule 0")
      else pure { grammar, messages := sections.headD [] }

/-- The number of messages that the grammar accepts. -/
def countAccepted (inbox : Inbox) : Outcome SolveError String :=
  .ok (toString (inbox.messages.countP inbox.grammar.accepts))

/-- The number of messages that the grammar with looping rules accepts. -/
def countLooping (inbox : Inbox) : Outcome SolveError String :=
  match inbox.grammar.withLoops with
  | .error missing =>
    Outcome.report (.noSolution s!"rule {missing} is needed for the looping rules")
  | .ok grammar => countAccepted { inbox with grammar }

/-- The satellite messages. -/
def puzzle : Puzzle := Puzzle.ofParts parse countAccepted countLooping

end PuzzleCalendar.MessageGrammar
