import Std.Data.HashMap

/-! # Stores of computed values

A store keeps one value for each index and never replaces it. The dense store is a row of places that
grows on demand as far as a row can be long, the sparse one a map with indices of any kind. Both show the
same finite map through `get?` and `size`.
-/

namespace PuzzleCalendar.Memo

/-- A store of values by index that keeps the first value of each index. -/
class Store (σ : Type) (ι β : outParam Type) where
  /-- The store without a value. -/
  empty : σ
  /-- The value of an index. -/
  get? : σ → ι → Option β
  /-- The store with a value for an index that has none, as long as the index has a place. -/
  insert? : σ → ι → β → Option σ
  /-- The number of indices with a value. -/
  size : σ → Nat

/-- Whether no index has a value. -/
def Store.isEmpty {σ ι β : Type} [Store σ ι β] (store : σ) : Bool := Store.size store == 0

/-- The greatest length of a row: one more is no word of 64 bits. -/
def greatestLength : Nat := 18446744073709551615

/-- The greatest length of a row whose places take some bytes each: an offset within a row is a signed integer
of 64 bits. -/
def greatestRow (bytes : Nat) : Nat :=
  if bytes = 0 then greatestLength else 9223372036854775807 / bytes

/-- Values of small indices in a row of at most `limit` places. -/
structure DenseStore (limit : Nat) (β : Type) where
  places : Array (Option β)
  size_le : places.size ≤ limit

namespace DenseStore

variable {limit : Nat} {β : Type}

/-- The value of an index. -/
def get? (store : DenseStore limit β) (index : Nat) : Option β := store.places.getD index none

/-- The places of a store, up to `index` at least. -/
def grow (places : Array (Option β)) (index : Nat) : Array (Option β) :=
  places ++ Array.replicate (index + 1 - places.size) none

theorem size_grow (places : Array (Option β)) (index : Nat) :
    (grow places index).size = max places.size (index + 1) := by
  rw [grow, Array.size_append, Array.size_replicate]
  omega

/-- The store with a value for an index that has none, as long as the row can be long enough. -/
def insert? (store : DenseStore limit β) (index : Nat) (value : β) : Option (DenseStore limit β) :=
  if room : index < limit then
    match store.get? index with
    | some _ => some store
    | none => some {
        places := (grow store.places index).setIfInBounds index (some value)
        size_le := by
          have bound := store.size_le
          rw [Array.size_setIfInBounds, size_grow]
          omega }
  else none

/-- The number of indices with a value. -/
def size (store : DenseStore limit β) : Nat := store.places.countP Option.isSome

instance : Store (DenseStore limit β) Nat β where
  empty := ⟨#[], Nat.zero_le limit⟩
  get? := get?
  insert? := insert?
  size := size

/-- The store without a value that has memory for some places, as long as a row can have them. The memory does not
show in the store. -/
def withCapacity? (capacity : Nat) : Option (DenseStore limit β) :=
  if capacity ≤ limit then some Store.empty else none

end DenseStore

/-- Values of indices of any kind. -/
structure SparseStore (ι β : Type) [BEq ι] [Hashable ι] where
  values : Std.HashMap ι β

namespace SparseStore

variable {ι β : Type} [BEq ι] [Hashable ι]

instance : Store (SparseStore ι β) ι β where
  empty := ⟨∅⟩
  get? store index := store.values[index]?
  insert? store index value := some ⟨store.values.insertIfNew index value⟩
  size store := store.values.size

end SparseStore

end PuzzleCalendar.Memo
