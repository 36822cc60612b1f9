import PuzzleCalendar.Input
import PuzzleCalendar.Memo.Recurrence
import PuzzleCalendar.Number.Literal
import PuzzleCalendar.Number.Width
import PuzzleCalendar.Puzzle

/-! # Adapter chains

The chain starts at an outlet of zero jolts, goes up through every adapter by one to three jolts a
step, and ends at a device three above the last adapter. The first part multiplies the steps of one
jolt by those of three, the second one counts the ways to leave out adapters.
-/

namespace PuzzleCalendar.Adapters

/-- The neighbours in a list. -/
def neighbours (chain : List Nat) : List (Nat × Nat) := chain.zip chain.tail

/-- The number of steps by zero to three jolts. -/
abbrev StepTable := Vector Nat 4

/-- The table with one more step between two neighbours. A step that goes down is no word, and a step by
more than three has no place in the table. -/
def StepTable.count? (table : StepTable) (pair : Nat × Nat) : Option StepTable := do
  let step ← Number.difference? pair.2 pair.1
  let count ← table[step]?
  let more ← Number.word64? (count + 1)
  pure (table.setIfInBounds step more)

/-- The steps of a chain. -/
def countSteps? (chain : List Nat) : Option StepTable :=
  (neighbours chain).foldlM StepTable.count? (Vector.replicate 4 0)

/-- The places before a place from which one step leads to it. -/
def origins (chain : Array Nat) (place : Nat) : List Nat :=
  (List.range' (place - 3) (place - (place - 3))).filter fun origin =>
    chain.getD place 0 - chain.getD origin 0 ≤ 3

theorem lt_of_mem_origins {chain : Array Nat} {place origin : Nat}
    (member : origin ∈ origins chain place) : origin < place := by
  have range := List.mem_range'_1.mp (List.mem_filter.mp member).1
  omega

/-- The ways to reach each place of the chain from its start, as far as words hold them. -/
def arrangements (chain : Array Nat) : Memo.Recurrence Nat (Option Nat) where
  deps := origins chain
  compute place ways :=
    if place = 0 then some 1
    else do Number.sum64? (← ways.mapM id)
  wellFounded := Subrelation.wf lt_of_mem_origins Nat.lt_wfRel.wf

/-- The ways to reach the last place. -/
def countArrangements? (chain : List Nat) : Option Nat :=
  (((arrangements chain.toArray).resolve (chain.length - 1)).run.run
    (Memo.Cache.empty : Memo.Cache (Memo.DenseStore Memo.greatestLength (Option Nat)) Nat)).1.join

/-- No step joins two neighbours. -/
def unjoined (pair : Nat × Nat) : Bool := 3 < pair.2 - pair.1 || pair.2 = pair.1

/-- The first neighbours that no step joins. A step that goes down is no word. -/
def findUnjoined? : List (Nat × Nat) → Option (Option (Nat × Nat))
  | [] => some none
  | (low, high) :: rest => do
    let step ← Number.difference? high low
    if 3 < step || high = low then some (some (low, high)) else findUnjoined? rest

/-- No step goes down in a rising list. -/
theorem findUnjoined?_eq_some {pairs : List (Nat × Nat)} (rising : ∀ pair ∈ pairs, pair.1 ≤ pair.2) :
    findUnjoined? pairs = some (pairs.find? unjoined) := by
  induction pairs with
  | nil => rfl
  | cons pair rest ih =>
    obtain ⟨low, high⟩ := pair
    obtain ⟨up, rising⟩ := List.forall_mem_cons.mp rising
    have step : Number.difference? high low = some (high - low) := if_pos up
    have first : findUnjoined? ((low, high) :: rest) =
        if unjoined (low, high) then some (some (low, high)) else findUnjoined? rest := by
      rw [findUnjoined?, step]
      rfl
    rw [first, ih rising, List.find?_cons]
    cases unjoined (low, high) with
    | true => rfl
    | false => rfl

theorem pairwise_mergeSort (adapters : List Nat) : (adapters.mergeSort (· ≤ ·)).Pairwise (· ≤ ·) := by
  have sorted : (adapters.mergeSort fun low high => decide (low ≤ high)).Pairwise
      fun low high => decide (low ≤ high) = true := by
    refine List.pairwise_mergeSort ?_ ?_ _
    · simpa using fun _ _ _ => Nat.le_trans
    · simpa using Nat.le_total
  exact sorted.imp of_decide_eq_true

/-- The chain of some adapters with the outlet and the device. -/
def chainOf (adapters : List Nat) : Outcome ParseError (List Nat) := do
  let rising := (0 :: adapters).mergeSort (· ≤ ·)
  let device ← Outcome.orFault (Number.word64? (rising.getLast?.getD 0 + 3))
  let chain := rising ++ [device]
  match ← Outcome.orFault (findUnjoined? (neighbours chain)) with
  | some (low, high) =>
    Outcome.report (.invalidFormat s!"adapters {low} and {high} cannot be chained")
  | none => pure chain

/-- The adapters of all lines. -/
def readAdapters (text : Text) : Except ParseError (List Nat) :=
  Input.readLines (fun line => (Number.readUnsigned 64 line).mapError Number.LiteralError.message) text

/-- The chain of all adapters. -/
def parse (text : Text) : Outcome ParseError (List Nat) := do
  chainOf (← Outcome.ofExcept (readAdapters text))

/-- The product of the steps of one jolt and those of three. -/
def stepProduct (chain : List Nat) : Outcome SolveError String := do
  let steps ← Outcome.orFault (countSteps? chain)
  pure (toString (← Outcome.orFault (Number.word64? (steps[1] * steps[3]))))

/-- The number of arrangements. -/
def arrangementCount (chain : List Nat) : Outcome SolveError String := do
  pure (toString (← Outcome.orFault (countArrangements? chain)))

/-- The adapter chain. -/
def puzzle : Puzzle := Puzzle.ofParts parse stepProduct arrangementCount

end PuzzleCalendar.Adapters
