import PuzzleCalendar.Memo.Store

/-! # Recurrences and their memoised evaluation

A recurrence computes the value of an index from the values of the indices it depends on, and no index
depends on itself in any number of steps. `value` is the plain recursion. A cache stores each value
that it computes and computes no value twice.
-/

namespace PuzzleCalendar.Memo

/-- Which indices an index depends on, and its value given theirs. -/
structure Recurrence (ι β : Type) where
  deps : ι → List ι
  compute : ι → List β → β
  wellFounded : WellFounded fun dep index => dep ∈ deps index

/-- The value of an index by plain recursion. -/
def Recurrence.value {ι β : Type} (recurrence : Recurrence ι β) (index : ι) : β :=
  recurrence.compute index ((recurrence.deps index).attach.map fun ⟨dep, _⟩ => recurrence.value dep)
termination_by recurrence.wellFounded.wrap index

/-- A store of values, and the indices whose values were computed, the latest first. -/
structure Cache (σ ι : Type) where
  store : σ
  computed : List ι

/-- The cache that knows no value. -/
def Cache.empty {σ ι β : Type} [Store σ ι β] : Cache σ ι := ⟨Store.empty, []⟩

/-- The number of values that the cache knows. -/
def Cache.size {σ ι β : Type} [Store σ ι β] (cache : Cache σ ι) : Nat := Store.size cache.store

/-- A computation on a cache. One that stops without a value leaves the cache as far as it came. -/
abbrev Evaluation (σ ι : Type) := OptionT (StateM (Cache σ ι))

/-- Remembers the value of an index that was computed. It stops when the index has no place. -/
def record {σ ι β : Type} [Store σ ι β] (index : ι) (value : β) : Evaluation σ ι Unit := do
  modify fun cache => { cache with computed := index :: cache.computed }
  let cache ← get
  match Store.insert? cache.store index value with
  | some store => set { cache with store }
  | none => failure

/-- The value of an index, taken from the cache or computed after the values it depends on, which are
resolved in order. -/
def Recurrence.resolve {σ ι β : Type} [Store σ ι β] (recurrence : Recurrence ι β) (index : ι) :
    Evaluation σ ι β := do
  match Store.get? (← get).store index with
  | some value => pure value
  | none =>
    let values ← (recurrence.deps index).attach.mapM fun ⟨dep, _⟩ => recurrence.resolve dep
    let value := recurrence.compute index values
    record index value
    pure value
termination_by recurrence.wellFounded.wrap index

end PuzzleCalendar.Memo
