import PuzzleCalendar.Graph
import PuzzleCalendar.Input
import PuzzleCalendar.Memo.Recurrence
import PuzzleCalendar.Number.Literal
import PuzzleCalendar.Number.Width
import PuzzleCalendar.Puzzle
import PuzzleCalendar.Text.DecimalDigit
import PuzzleCalendar.Text.WordChar

/-! # Nested bags

Each rule says which bags a bag of one color holds directly. The first part counts the colors that can
hold a target bag at any depth, the second one the bags nested inside the target, which have a total
only if no bag that it leads to ends up inside itself.
-/

namespace PuzzleCalendar.Baggage

open Text

/-- Counted colors that a bag holds directly. -/
abbrev Contents := List (Nat × Text)

/-- The contents of each color that has a rule. -/
abbrev Rules := List (Text × Contents)

/-- The color whose bags are counted. -/
def target : Text := "shiny gold".toList

/-- Why a line is no rule. -/
inductive RuleError where
  | shape (line : Text)
  | content (part : Text)
  | count
deriving DecidableEq, Repr

/-- The sentence that reports a rule error. -/
def RuleError.message : RuleError → String
  | shape line => "expected `<color> bags contain ...`, got " ++ quoted line
  | content part => "expected `<n> <color> bags`, got " ++ quoted part
  | count => "bag count out of range"

/-- A color at the start of a text, which is two words with a space between them, and the rest. -/
def color? (text : Text) : Option (Text × Text) :=
  let first := text.takeWhile isWordChar
  match text.dropWhile isWordChar with
  | ' ' :: rest =>
    let second := rest.takeWhile isWordChar
    if first.isEmpty || second.isEmpty then none
    else some (first ++ ' ' :: second, rest.dropWhile isWordChar)
  | _ => none

/-- The outer color and the contents as they are written. -/
def sentence? (line : Text) : Option (Text × Text) := do
  let (color, rest) ← color? line
  let contents ← dropTail? ['.'] (← dropLead? " bags contain ".toList rest)
  if contents.isEmpty || contents.contains '\n' then none else some (color, contents)

/-- A count as it is written and an inner color. -/
def counted? (part : Text) : Option (Text × Text) :=
  let count := part.takeWhile isDecimalDigit
  match part.dropWhile isDecimalDigit with
  | ' ' :: rest => do
    let (color, rest) ← color? rest
    if !count.isEmpty && (rest = " bag".toList || rest = " bags".toList) then some (count, color)
    else none
  | _ => none

/-- Reads one counted color. -/
def readCounted (part : Text) : Except RuleError (Nat × Text) :=
  match counted? part with
  | none => .error (.content part)
  | some (count, color) =>
    match Number.readUnsigned 64 count with
    | .ok count => .ok (count, color)
    | .error _ => .error .count

/-- Reads one rule. -/
def readRule (line : Text) : Except RuleError (Text × Contents) :=
  match sentence? line with
  | none => .error (.shape line)
  | some (color, contents) =>
    if contents = "no other bags".toList then .ok (color, [])
    else do
      pure (color, ← (splitAllAt ", ".toList contents).mapM readCounted)

/-- The rules with one more, which replaces an earlier one for its color. -/
def Rules.insert (rules : Rules) (rule : Text × Contents) : Rules :=
  rules.filter (·.1 != rule.1) ++ [rule]

/-- The contents of a color; a color without a rule holds nothing. -/
def Rules.contents (rules : Rules) (color : Text) : Contents :=
  (rules.lookup color).getD []

/-- An edge from each color to every color that it holds directly. -/
def Rules.graph (rules : Rules) : Graph Text :=
  ⟨rules.flatMap fun rule => rule.2.map fun content => (rule.1, content.2)⟩

/-- The colors other than the target that can hold it at any depth. -/
def Rules.holders (rules : Rules) (target : Text) : List Text :=
  rules.graph.leadingTo target

/-- A color leads to every color that it holds. -/
theorem Rules.edge_of_mem_contents {rules : Rules} {color : Text} {content : Nat × Text}
    (member : content ∈ rules.contents color) : (color, content.2) ∈ rules.graph.edges := by
  rw [contents] at member
  cases found : rules.lookup color with
  | none => simp [found] at member
  | some contents =>
    obtain ⟨before, after, split, -⟩ := List.lookup_eq_some_iff.mp found
    rw [found, Option.getD_some] at member
    exact List.mem_flatMap.mpr ⟨(color, contents), by simp [split], List.mem_map.mpr ⟨content, member, rfl⟩⟩

/-- A sum with the bags of one more content, given the bags inside each of them, as far as words hold them. -/
def addBags? (sum : Nat) : (Nat × Text) × Nat → Option Nat
  | ((count, _), inside) => do
    let bag ← Number.word64? (1 + inside)
    let bags ← Number.word64? (count * bag)
    Number.word64? (sum + bags)

theorem addBags?_eq_some_iff {sum next : Nat} {pair : (Nat × Text) × Nat} : addBags? sum pair = some next ↔
    sum + pair.1.1 * (1 + pair.2) = next ∧ 1 + pair.2 < 18446744073709551616 ∧
      next < 18446744073709551616 := by
  obtain ⟨⟨count, color⟩, inside⟩ := pair
  simp only [addBags?, Option.bind_eq_bind, Option.bind_eq_some_iff, Number.word64?_eq_some_iff]
  constructor
  · rintro ⟨_, ⟨rfl, small⟩, _, ⟨rfl, -⟩, rfl, fits⟩
    exact ⟨rfl, small, fits⟩
  · rintro ⟨rfl, small, fits⟩
    exact ⟨_, ⟨rfl, small⟩, _, ⟨rfl, by omega⟩, rfl, fits⟩

/-- The bags inside a bag with some contents, given the bags inside each inner bag. -/
def nested? (contents : Contents) (insides : List Nat) : Option Nat :=
  (contents.zip insides).foldlM addBags? 0

/-- A color that leads to no color inside itself. -/
abbrev Rules.Bounded (rules : Rules) := { color : Text // rules.graph.Grounded color }

/-- A color is hashed as a string. -/
instance (rules : Rules) : Hashable rules.Bounded := ⟨fun color => hash (String.ofList color.1)⟩

/-- The bags inside a bag of each such color, as far as words hold them. -/
def Rules.nesting (rules : Rules) : Memo.Recurrence rules.Bounded (Option Nat) where
  deps color := (rules.contents color.1).attach.map fun content =>
    ⟨content.1.2, color.2.next (edge_of_mem_contents content.2)⟩
  compute color insides := do nested? (rules.contents color.1) (← insides.mapM id)
  wellFounded := by
    constructor
    rintro ⟨color, grounded⟩
    induction grounded with
    | intro color _ ih =>
      constructor
      intro inner member
      obtain ⟨content, _, rfl⟩ := List.mem_map.mp member
      exact ih _ (edge_of_mem_contents content.2)

/-- The bags inside a bag of a color, remembered for each color that it leads to. -/
def Rules.countInside? (rules : Rules) (color : rules.Bounded) : Option Nat :=
  ((rules.nesting.resolve color).run.run
    (Memo.Cache.empty : Memo.Cache (Memo.SparseStore rules.Bounded (Option Nat)) rules.Bounded)).1.join

/-- The rules of all lines. -/
def parse (text : Text) : Outcome ParseError Rules :=
  Outcome.ofExcept do
    let rules ← Input.readLines (fun line => (readRule line).mapError RuleError.message) text
    pure (rules.foldl Rules.insert [])

/-- The number of colors that can hold the target. -/
def countHolders (rules : Rules) : Outcome SolveError String :=
  .ok (toString (rules.holders target).length)

/-- The number of bags inside the target. -/
def countNested (rules : Rules) : Outcome SolveError String :=
  if (rules.lookup target).isNone then
    Outcome.report (.noSolution s!"no rule for {String.ofList target} bags")
  else
    match found : rules.graph.cycleFrom target with
    | some color =>
      Outcome.report (.noSolution s!"{String.ofList color} bags end up containing themselves")
    | none => do
      let inside := rules.countInside? ⟨target, Graph.grounded_of_cycleFrom found⟩
      pure (toString (← Outcome.orFault inside))

/-- The nested bags. -/
def puzzle : Puzzle := Puzzle.ofParts parse countHolders countNested

end PuzzleCalendar.Baggage
