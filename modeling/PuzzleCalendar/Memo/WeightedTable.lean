import PuzzleCalendar.Memo.Recurrence
import PuzzleCalendar.Number.Total

/-! # Tables of weighted sums

A table lists indices with a number of their own and the indices they depend on. The value of an index
is its own number plus its dependencies' values, each times its place in the list, modulo a prime.
-/

namespace PuzzleCalendar.Memo

/-- An index with its own number and the indices it depends on. -/
structure Node (ι : Type) where
  index : ι
  own : Nat
  deps : List ι
deriving DecidableEq, Repr

namespace WeightedTable

variable {ι : Type} [DecidableEq ι]

/-- The last node that lists an index. An index without one has the number zero and no
dependencies. -/
def node (table : List (Node ι)) (index : ι) : Node ι :=
  (table.reverse.find? fun node => node.index = index).getD ⟨index, 0, []⟩

/-- A height for each listed index; any other index has the height zero. -/
abbrev Heights (ι : Type) := List (ι × Nat)

/-- The height of an index. -/
def Heights.of (heights : Heights ι) (index : ι) : Nat := (heights.lookup index).getD 0

/-- Lifts every listed index above its dependencies. -/
def lift (table : List (Node ι)) (heights : Heights ι) : Heights ι :=
  table.map fun entry =>
    (entry.index, ((node table entry.index).deps.map fun dep => heights.of dep + 1).foldl max 0)

/-- The heights after as many lifts as there are nodes. When nothing that an index leads to depends on
itself, the index then lies above its dependencies. -/
def heights (table : List (Node ι)) : Heights ι :=
  (List.range table.length).foldl (fun heights _ => lift table heights) []

/-- The dependencies of an index that lie below it. In a table without a cycle these are all. -/
def lowerDeps (table : List (Node ι)) (heights : Heights ι) (index : ι) : List ι :=
  (node table index).deps.filter fun dep => heights.of dep < heights.of index

/-- The modulus of all values. -/
def modulus : Nat := 1000000007

/-- The value of an index, given those of its dependencies. -/
def weightedSum (own : Nat) (values : List Nat) : Nat :=
  (own + Number.total ((values.zipIdx 1).map fun (value, weight) => weight * value)) % modulus

/-- The recurrence of a table. -/
def recurrence (table : List (Node ι)) : Recurrence ι Nat :=
  let heights := heights table
  { deps := lowerDeps table heights
    compute := fun index values => weightedSum (node table index).own values
    wellFounded := by
      apply Subrelation.wf (r := InvImage (· < ·) heights.of) _ (InvImage.wf _ Nat.lt_wfRel.wf)
      intro dep index member
      simpa [InvImage, lowerDeps] using (List.mem_filter.mp member).2 }

end WeightedTable

end PuzzleCalendar.Memo
