import Mathlib.Data.Finset.Card
import PuzzleCalendar.Proofs.Memo.Stores

/-! # What stores show

Operations on a store show the finite map of the entries inserted before, in which the first value of an index is
its value. A sparse store shows it whatever the operations are. A dense store shows the same as long as a row can
have a place for each index that is inserted, and stops otherwise. Memory set aside at first makes no difference.
-/

namespace PuzzleCalendar.Memo

/-- An operation on a store. -/
inductive Operation (ι β : Type) where
  | insert (index : ι) (value : β)
  | get (index : ι)
  | len
  | isEmpty
deriving DecidableEq, Repr

/-- What an operation shows. -/
inductive Observation (β : Type) where
  | done
  | value (found : Option β)
  | count (size : Nat)
  | emptiness (empty : Bool)
deriving DecidableEq, Repr

/-- The entry of an insertion. -/
def Operation.entry? {ι β : Type} : Operation ι β → Option (ι × β)
  | .insert index value => some (index, value)
  | _ => none

/-- The entries that operations insert, in their order. -/
def inserted {ι β : Type} (operations : List (Operation ι β)) : List (ι × β) :=
  operations.filterMap Operation.entry?

section

variable {σ ι β : Type} [Store σ ι β]

/-- The store after an operation and what that shows. An insertion needs a place for the index. -/
def Store.perform? (store : σ) : Operation ι β → Option (σ × Observation β)
  | .insert index value => (Store.insert? store index value).map (·, .done)
  | .get index => some (store, .value (Store.get? store index))
  | .len => some (store, .count (Store.size store))
  | .isEmpty => some (store, .emptiness (Store.isEmpty store))

/-- What operations show one after the other. -/
def Store.observations? (store : σ) : List (Operation ι β) → Option (List (Observation β))
  | [] => some []
  | operation :: rest => do
    let (next, observation) ← Store.perform? store operation
    pure (observation :: (← Store.observations? next rest))

end

section Maps

variable {ι β : Type}

@[simp] theorem inserted_nil : inserted ([] : List (Operation ι β)) = [] := rfl

theorem inserted_cons (operation : Operation ι β) (rest : List (Operation ι β)) :
    inserted (operation :: rest) = operation.entry?.toList ++ inserted rest := by
  cases operation <;> rfl

variable [DecidableEq ι]

/-- What an operation shows of the finite map of some entries: each index has the first value of an entry with
it, and counts once. -/
def mapObservation (entries : List (ι × β)) : Operation ι β → Observation β
  | .insert _ _ => .done
  | .get index => .value (entries.lookup index)
  | .len => .count (entries.map Prod.fst).toFinset.card
  | .isEmpty => .emptiness entries.isEmpty

/-- What operations show of a finite map that keeps the first value of each index, where each operation sees the
entries that some of them and the operations before it inserted. -/
def mapObservations (entries : List (ι × β)) (operations : List (Operation ι β)) : List (Observation β) :=
  operations.mapIdx fun place operation => mapObservation (entries ++ inserted (operations.take place)) operation

theorem mapObservations_cons (entries : List (ι × β)) (operation : Operation ι β) (rest : List (Operation ι β)) :
    mapObservations entries (operation :: rest) =
      mapObservation entries operation :: mapObservations (entries ++ operation.entry?.toList) rest := by
  simp [mapObservations, List.mapIdx_cons, inserted_cons]

end Maps

section Laws

variable {σ ι β : Type} [DecidableEq ι] [Store σ ι β] {store next : σ} {entries : List (ι × β)}
  {operation : Operation ι β} {operations : List (Operation ι β)}

/-- A store shows the finite map of some entries. -/
structure Keeps (store : σ) (entries : List (ι × β)) : Prop where
  get?_eq (index : ι) : Store.get? store index = entries.lookup index
  size_eq : Store.size store = (entries.map Prod.fst).toFinset.card

theorem Keeps.mem_iff (keeps : Keeps store entries) {index : ι} :
    index ∈ entries.map Prod.fst ↔ (Store.get? store index).isSome := by
  rw [keeps.get?_eq, List.lookup_isSome_iff, List.mem_map]
  exact exists_congr fun entry => and_congr_right fun _ => by rw [beq_iff_eq, eq_comm]

theorem Keeps.isEmpty_eq (keeps : Keeps store entries) : Store.isEmpty store = entries.isEmpty := by
  rw [Store.isEmpty, keeps.size_eq]
  cases entries with
  | nil => rfl
  | cons entry rest => simp

variable {Holds : ι → Prop} [lawful : LawfulStore σ Holds]

include lawful

theorem keeps_empty : Keeps (Store.empty : σ) [] where
  get?_eq index := LawfulStore.get?_empty index
  size_eq := LawfulStore.size_empty

theorem Keeps.insert {index : ι} {value : β} (keeps : Keeps store entries)
    (done : Store.insert? store index value = some next) : Keeps next (entries ++ [(index, value)]) where
  get?_eq other := by
    rw [List.lookup_append, ← keeps.get?_eq]
    by_cases same : other = index
    · subst same
      rw [LawfulStore.get?_insert? done, List.lookup_cons_self]
      cases Store.get? store other <;> rfl
    · rw [LawfulStore.get?_insert?_of_ne done same, List.lookup_cons, beq_false_of_ne same, List.lookup_nil,
        Option.or_none]
  size_eq := by
    rw [List.map_append, List.map_singleton, List.toFinset_append, List.toFinset_cons, List.toFinset_nil,
      insert_empty_eq, Finset.union_singleton]
    cases known : Store.get? store index with
    | none =>
      have fresh : index ∉ (entries.map Prod.fst).toFinset := by
        rw [List.mem_toFinset, keeps.mem_iff, known]
        simp
      rw [LawfulStore.size_insert? done known, Finset.card_insert_of_notMem fresh, keeps.size_eq]
    | some first =>
      have member : index ∈ (entries.map Prod.fst).toFinset := by
        rw [List.mem_toFinset, keeps.mem_iff, known]
        rfl
      rw [LawfulStore.size_insert?_of_get? done known, Finset.insert_eq_of_mem member, keeps.size_eq]

/-- An operation for which the store has places shows the map, and the store then shows the map with its entry. -/
theorem Keeps.perform? (keeps : Keeps store entries) (room : ∀ entry ∈ operation.entry?, Holds entry.1) :
    ∃ next, Store.perform? store operation = some (next, mapObservation entries operation) ∧
      Keeps next (entries ++ operation.entry?.toList) := by
  cases operation with
  | insert index value =>
    have place := (LawfulStore.isSome_insert?_iff store index value).mpr (room (index, value) rfl)
    obtain ⟨next, done⟩ := Option.isSome_iff_exists.mp place
    exact ⟨next, by rw [Store.perform?, done]; rfl, keeps.insert done⟩
  | get index =>
    refine ⟨store, ?_, by simpa [Operation.entry?] using keeps⟩
    rw [Store.perform?, keeps.get?_eq, mapObservation]
  | len =>
    refine ⟨store, ?_, by simpa [Operation.entry?] using keeps⟩
    rw [Store.perform?, keeps.size_eq, mapObservation]
  | isEmpty =>
    refine ⟨store, ?_, by simpa [Operation.entry?] using keeps⟩
    rw [Store.perform?, keeps.isEmpty_eq, mapObservation]

/-- Operations that the store has places for show the map. -/
theorem Keeps.observations?_eq_some (keeps : Keeps store entries)
    (room : ∀ entry ∈ inserted operations, Holds entry.1) :
    Store.observations? store operations = some (mapObservations entries operations) := by
  induction operations generalizing store entries with
  | nil => rfl
  | cons operation rest ih =>
    rw [inserted_cons, List.forall_mem_append] at room
    obtain ⟨next, done, kept⟩ := keeps.perform? fun entry inserts => room.1 entry (Option.mem_toList.mpr inserts)
    rw [Store.observations?, done, mapObservations_cons]
    simp [ih kept room.2]

omit [DecidableEq ι] in
/-- An insertion without a place stops the store. -/
theorem observations?_eq_none {entry : ι × β} (inserts : entry ∈ inserted operations) (full : ¬ Holds entry.1) :
    Store.observations? store operations = none := by
  induction operations generalizing store with
  | nil => simp at inserts
  | cons operation rest ih =>
    rw [inserted_cons, List.mem_append, Option.mem_toList] at inserts
    rw [Store.observations?, Option.bind_eq_bind, Option.bind_eq_none_iff]
    rintro ⟨next, observation⟩ done
    obtain now | later := inserts
    · cases operation with
      | insert index value =>
        obtain rfl := Option.some.inj now
        have placed : (Store.insert? store index value).isSome := by
          obtain ⟨_, inserted, -⟩ := Option.map_eq_some_iff.mp done
          rw [inserted]
          rfl
        exact absurd ((LawfulStore.isSome_insert?_iff store index value).mp placed) full
      | get index => cases now
      | len => cases now
      | isEmpty => cases now
    · simp [ih later]

end Laws

/-- The sparse store shows the finite map of the first values for all operations. The dense store, whose places take
some bytes each, can set aside memory for as many places as a row has at most. It then shows the same when a row
can have a place for each index that is inserted; otherwise it stops. -/
theorem stores_interchangeable {β : Type} (bytes capacity : ℕ) (operations : List (Operation ℕ β)) :
    Store.observations? (Store.empty : SparseStore ℕ β) operations = some (mapObservations [] operations) ∧
    (capacity ≤ greatestRow bytes → ∃ dense : DenseStore (greatestRow bytes) β,
      DenseStore.withCapacity? capacity = some dense ∧
      ((∀ entry ∈ inserted operations, entry.1 < greatestRow bytes) →
        Store.observations? dense operations = some (mapObservations [] operations)) ∧
      ((∃ entry ∈ inserted operations, greatestRow bytes ≤ entry.1) →
        Store.observations? dense operations = none)) ∧
    (greatestRow bytes < capacity →
      (DenseStore.withCapacity? capacity : Option (DenseStore (greatestRow bytes) β)) = none) := by
  refine ⟨keeps_empty.observations?_eq_some fun _ _ => trivial, fun room => ?_, fun large => ?_⟩
  · refine ⟨Store.empty, if_pos room, fun inside => keeps_empty.observations?_eq_some inside, ?_⟩
    rintro ⟨entry, inserts, full⟩
    refine observations?_eq_none inserts ?_
    exact Nat.not_lt.mpr full
  · exact if_neg (Nat.not_le.mpr large)

/-- An index beyond the memory set aside, one in the gap before it, a second value and an index beyond all. -/
def scattered : List (Operation ℕ String) :=
  [.isEmpty, .insert 6 "a", .get 3, .insert 2 "b", .insert 6 "c", .get 6, .get 9, .len]

/-- What they show. -/
def scatteredObservations : List (Observation String) :=
  [.emptiness true, .done, .value none, .done, .done, .value (some "a"), .value none, .count 2]

theorem stores_interchangeable_scattered : ∃ dense : DenseStore (greatestRow 24) String,
    DenseStore.withCapacity? 4 = some dense ∧
      Store.observations? dense scattered = some scatteredObservations ∧
      Store.observations? (Store.empty : SparseStore ℕ String) scattered = some scatteredObservations := by
  have shows : mapObservations [] scattered = scatteredObservations := by decide
  obtain ⟨sparse, row, -⟩ := stores_interchangeable 24 4 scattered
  obtain ⟨dense, made, same, -⟩ := row (by decide)
  rw [shows] at sparse same
  exact ⟨dense, made, same (by decide), sparse⟩

/-- An index below the greatest word has no place in a row whose places take 24 bytes, though the sparse store keeps
its value. -/
theorem index_has_no_place : 4611686018427387904 < greatestLength ∧
    (∃ dense : DenseStore (greatestRow 24) String, DenseStore.withCapacity? 0 = some dense ∧
      Store.observations? dense [.insert 4611686018427387904 "a", .len] = none) ∧
    Store.observations? (Store.empty : SparseStore ℕ String) [.insert 4611686018427387904 "a", .len] =
      some [.done, .count 1] := by
  refine ⟨by decide, ⟨Store.empty, rfl, ?_⟩, keeps_empty.observations?_eq_some fun _ _ => trivial⟩
  exact observations?_eq_none List.mem_cons_self (by decide)

end PuzzleCalendar.Memo
