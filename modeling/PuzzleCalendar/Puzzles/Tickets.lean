import PuzzleCalendar.Input
import PuzzleCalendar.Number.Literal
import PuzzleCalendar.Number.Width
import PuzzleCalendar.Puzzle
import PuzzleCalendar.Text.DecimalDigit

/-! # Ticket fields

Rules say which values a field can have, and tickets list values without saying which field is which.
The tickets that can be valid leave some rules for every place, the bits of a word. A place with a single
rule takes that rule from the other places, until nothing changes; then each place has to have one rule of
its own.
-/

namespace PuzzleCalendar.Tickets

open Text

/-- The values from `low` to `high`. -/
structure Span where
  low : Nat
  high : Nat
deriving DecidableEq, Repr

/-- The value lies in the span. -/
def Span.contains (span : Span) (value : Nat) : Bool :=
  span.low ≤ value && value ≤ span.high

/-- A field and its two spans of values. -/
structure Rule where
  name : Text
  first : Span
  second : Span
deriving DecidableEq, Repr

/-- The value lies in one of the spans. -/
def Rule.accepts (rule : Rule) (value : Nat) : Bool :=
  rule.first.contains value || rule.second.contains value

/-- The rules, one's own ticket and other tickets. -/
structure Notes where
  rules : List Rule
  mine : List Nat
  nearby : List (List Nat)
deriving DecidableEq, Repr

/-- Why the places of a ticket have no order of fields. -/
inductive OrderError where
  | noRule (place : Nat)
  | ambiguous (place rules : Nat)
  | claimedTwice
deriving DecidableEq, Repr

/-- The sentence that reports an order error. -/
def OrderError.message : OrderError → String
  | noRule place => s!"no rule fits ticket position {place}"
  | ambiguous place rules => s!"ticket position {place} is ambiguous between {rules} rules"
  | claimedTwice => "one rule is claimed by several ticket positions"

namespace Notes

/-- Some rule accepts the value. -/
def matchesAny (notes : Notes) (value : Nat) : Bool :=
  notes.rules.any (·.accepts value)

/-- The tickets of the length of one's own on which every value matches some rule. -/
def valid (notes : Notes) : List (List Nat) :=
  (notes.mine :: notes.nearby).filter fun ticket =>
    ticket.length == notes.mine.length && ticket.all notes.matchesAny

end Notes

/-- A set of rules in a word of 64 bits, one bit for each rule number. -/
abbrev RuleSet := BitVec 64

/-- The set of all of `count` rules: a word of ones, shifted right by less than its width. -/
def RuleSet.all? (count : Nat) : Option RuleSet :=
  if count ≤ 64 ∧ 64 - count < 64 then some (BitVec.allOnes 64 >>> (64 - count)) else none

/-- The set of one rule: a one, shifted left by less than the width of the word. -/
def RuleSet.single? (number : Nat) : Option RuleSet :=
  if number < 64 then some (1#64 <<< number) else none

/-- Takes a rule from a set when it refuses a value. The rule comes with its number. -/
def exclude? (value : Nat) (slot : RuleSet) (entry : Rule × Nat) : Option RuleSet :=
  if entry.1.accepts value then some slot
  else (RuleSet.single? entry.2).map fun single => slot &&& ~~~single

/-- Takes the rules that refuse a value from a set. -/
def narrow? (rules : List Rule) (value : Nat) (slot : RuleSet) : Option RuleSet :=
  rules.zipIdx.foldlM (exclude? value) slot

/-- Takes the rules that refuse the value of a ticket from the set at its place, for every place. -/
def narrowAll? (rules : List Rule) : List RuleSet → List Nat → Option (List RuleSet)
  | slot :: slots, value :: values => do
    pure ((← narrow? rules value slot) :: (← narrowAll? rules slots values))
  | slots, _ => some slots

/-- The rules that fit each place of one's own ticket. -/
def Notes.candidates? (notes : Notes) : Option (List RuleSet) := do
  let all ← RuleSet.all? notes.rules.length
  notes.valid.foldlM (narrowAll? notes.rules) (List.replicate notes.mine.length all)

/-- The set at the first place with a single rule that is not resolved yet. -/
def nextSingle? (resolved : RuleSet) (slots : List RuleSet) : Option RuleSet :=
  slots.find? fun slot => slot.cpop = 1 ∧ slot &&& resolved = 0

/-- Takes a single rule from the places that have others too. -/
def claim (single : RuleSet) (slots : List RuleSet) : List RuleSet :=
  slots.map fun slot => if slot = single then slot else slot &&& ~~~single

theorem nextSingle?_spec {resolved single : RuleSet} {slots : List RuleSet}
    (found : nextSingle? resolved slots = some single) :
    single ∈ slots ∧ single.cpop = 1 ∧ single &&& resolved = 0 := by
  have holds := List.find?_some found
  rw [decide_eq_true_eq] at holds
  exact ⟨List.mem_of_find?_eq_some found, holds⟩

/-- A rule that is resolved anew makes the word of the resolved ones greater. -/
theorem toNat_lt_toNat_or {resolved single : RuleSet} (one : single.cpop = 1)
    (fresh : single &&& resolved = 0) : resolved.toNat < (resolved ||| single).toNat := by
  rw [BitVec.toNat_or]
  refine Nat.lt_of_le_of_ne Nat.left_le_or fun same => ?_
  have absorbed : resolved ||| single = resolved := BitVec.eq_of_toNat_eq (by simpa using same.symm)
  have nothing : single = single &&& resolved := by
    rw [← absorbed]
    ext number
    simpa using Or.inr
  rw [nothing, fresh] at one
  simp at one

/-- Resolves places with a single rule until none is left. -/
def settle (resolved : RuleSet) (slots : List RuleSet) : List RuleSet :=
  match found : nextSingle? resolved slots with
  | none => slots
  | some single =>
    have := toNat_lt_toNat_or (nextSingle?_spec found).2.1 (nextSingle?_spec found).2.2
    settle (resolved ||| single) (claim single slots)
termination_by 18446744073709551616 - resolved.toNat
decreasing_by exact Nat.sub_lt_sub_left resolved.isLt this

/-- The names of the fields, where each place has a single rule left. -/
def fieldNames (rules : List Rule) : Nat → List RuleSet → Outcome OrderError (List Text)
  | _, [] => .ok []
  | place, slot :: slots =>
    match slot.cpop.toNat with
    | 1 => do
      let rule ← Outcome.orFault rules[slot.ctz.toNat]?
      let names ← fieldNames rules (place + 1) slots
      pure (rule.name :: names)
    | 0 => Outcome.report (.noRule place)
    | count => Outcome.report (.ambiguous place count)

/-- The name of the field at each place. -/
def Notes.fieldOrder (notes : Notes) : Outcome OrderError (List Text) := do
  let slots ← Outcome.orFault notes.candidates?
  let names ← fieldNames notes.rules 0 (settle 0 slots)
  if names.Nodup then pure names else Outcome.report .claimedTwice

/-- The digits of a span at the start of a text, and the rest. -/
def spanDigits? (text : Text) : Option (Text × Text × Text) :=
  let low := text.takeWhile isDecimalDigit
  match text.dropWhile isDecimalDigit with
  | '-' :: rest =>
    let high := rest.takeWhile isDecimalDigit
    if low.isEmpty || high.isEmpty then none
    else some (low, high, rest.dropWhile isDecimalDigit)
  | _ => none

/-- A span with bounds of 64 bits. -/
def Span.read? (low high : Text) : Option Span := do
  pure ⟨← (Number.readUnsigned 64 low).toOption, ← (Number.readUnsigned 64 high).toOption⟩

/-- A character of a field name. -/
def isNameChar (char : Char) : Bool := ('a' ≤ char && char ≤ 'z') || char == ' '

/-- The rule of a line. -/
def Rule.read? (line : Text) : Option Rule := do
  let name := line.takeWhile isNameChar
  let rest ← dropLead? ": ".toList (line.dropWhile isNameChar)
  let (low, high, rest) ← spanDigits? rest
  let (otherLow, otherHigh, rest) ← spanDigits? (← dropLead? " or ".toList rest)
  if name.isEmpty || !rest.isEmpty then none
  else pure { name, first := ← Span.read? low high, second := ← Span.read? otherLow otherHigh }

/-- Reads one rule. -/
def readRule (line : Text) : Except ParseError Rule :=
  match Rule.read? line with
  | some rule => .ok rule
  | none => .error (.invalidFormat ("bad ticket rule " ++ quoted line))

/-- Reads one ticket. -/
def readTicket (line : Text) : Except ParseError (List Nat) :=
  (splitAll ',' line).mapM fun value =>
    (Number.readUnsigned 64 (trim value)).mapError fun _ =>
      .invalidFormat ("bad ticket " ++ quoted line)

/-- The lines of a block after its header. -/
def sectionLines (block : Option (List Text)) (header : String) : Except ParseError (List Text) :=
  match block with
  | some (first :: rest) =>
    if first = header.toList then .ok rest else .error (.missingData s!"`{header}` section")
  | _ => .error (.missingData s!"`{header}` section")

/-- The notes: rules, one's own ticket and the tickets nearby. -/
def parse (text : Text) : Outcome ParseError Notes :=
  Outcome.ofExcept <|
    match Input.blocks text with
    | [] => .error (.missingData "ticket rules")
    | ruleLines :: sections => do
      let rules ← ruleLines.mapM readRule
      if rules.isEmpty || 64 < rules.length then
        .error (.invalidFormat s!"expected 1 to 64 rules, got {rules.length}")
      else
        let own ← sectionLines sections[0]? "your ticket:"
        let mine ← match own with
          | [] => .error (.missingData "your ticket")
          | line :: _ => readTicket line
        let nearby ← (← sectionLines sections[1]? "nearby tickets:").mapM readTicket
        pure { rules, mine, nearby }

/-- The sum of the values nearby that match no rule. -/
def errorRate (notes : Notes) : Outcome SolveError String := do
  let values := notes.nearby.flatten.filter fun value => !notes.matchesAny value
  pure (toString (← Outcome.orFault (Number.sum64? values)))

/-- The product of one's own values in the fields whose names start with departure. -/
def departureProduct (notes : Notes) : Outcome SolveError String := do
  let names ← notes.fieldOrder.mapReport fun error => .noSolution error.message
  let fields := (names.zip notes.mine).filter fun field =>
    (dropLead? "departure".toList field.1).isSome
  pure (toString (← Outcome.orFault (Number.product64? (fields.map Prod.snd))))

/-- The train tickets. -/
def puzzle : Puzzle := Puzzle.ofParts parse errorRate departureProduct

end PuzzleCalendar.Tickets
