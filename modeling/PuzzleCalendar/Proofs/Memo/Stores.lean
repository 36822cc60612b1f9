import PuzzleCalendar.Memo.Store

/-! # The laws of stores

A store is a finite map from the indices that it has a place for: the first value of an index stays, and the
size counts the indices with a value. The dense store has places for all indices below its limit, the sparse
one for all indices.
-/

namespace PuzzleCalendar.Memo

/-- A store that has places for certain indices and keeps the first value of each. -/
class LawfulStore (σ : Type) {ι β : Type} [Store σ ι β] (Holds : outParam (ι → Prop)) : Prop where
  get?_empty (index : ι) : Store.get? (Store.empty : σ) index = none
  size_empty : Store.size (Store.empty : σ) = 0
  holds_of_get? {store : σ} {index : ι} {value : β} (found : Store.get? store index = some value) :
    Holds index
  isSome_insert?_iff (store : σ) (index : ι) (value : β) :
    (Store.insert? store index value).isSome ↔ Holds index
  get?_insert? {store next : σ} {index : ι} {value : β} (done : Store.insert? store index value = some next) :
    Store.get? next index = some ((Store.get? store index).getD value)
  get?_insert?_of_ne {store next : σ} {index other : ι} {value : β}
    (done : Store.insert? store index value = some next) (apart : other ≠ index) :
    Store.get? next other = Store.get? store other
  size_insert? {store next : σ} {index : ι} {value : β} (done : Store.insert? store index value = some next)
    (fresh : Store.get? store index = none) : Store.size next = Store.size store + 1
  size_insert?_of_get? {store next : σ} {index : ι} {value first : β}
    (done : Store.insert? store index value = some next) (known : Store.get? store index = some first) :
    Store.size next = Store.size store

namespace DenseStore

variable {limit : Nat} {β : Type} {store next : DenseStore limit β} {index other : Nat} {value : β}

theorem getElem?_grow (places : Array (Option β)) (index other : Nat) :
    (grow places index)[other]?.getD none = places[other]?.getD none := by
  simp only [grow, Array.getElem?_append, Array.getElem?_replicate]
  split
  · rfl
  · rename_i beyond
    rw [Array.getElem?_eq_none (Nat.not_lt.mp beyond)]
    split <;> rfl

theorem countP_grow (places : Array (Option β)) (index : Nat) :
    (grow places index).countP Option.isSome = places.countP Option.isSome := by
  simp [grow, Array.countP_append, Array.countP_replicate]

theorem lt_of_get? (found : store.get? index = some value) : index < limit := by
  apply Nat.lt_of_not_le
  intro beyond
  have outside : store.places.size ≤ index := Nat.le_trans store.size_le beyond
  rw [get?, Array.getD_eq_getD_getElem?, Array.getElem?_eq_none outside] at found
  contradiction

/-- What an insert leaves: the index is below the limit, and a fresh index has its place filled. -/
theorem insert?_cases (done : store.insert? index value = some next) :
    index < limit ∧ ((∃ first, store.get? index = some first ∧ next = store) ∨
      store.get? index = none ∧
        next.places = (grow store.places index).setIfInBounds index (some value)) := by
  unfold insert? at done
  split at done
  · rename_i room
    refine ⟨room, ?_⟩
    cases found : store.get? index with
    | some first =>
      simp only [found, Option.some.injEq] at done
      exact .inl ⟨first, rfl, done.symm⟩
    | none =>
      simp only [found, Option.some.injEq] at done
      exact .inr ⟨rfl, done ▸ rfl⟩
  · contradiction

theorem isSome_insert?_iff (store : DenseStore limit β) (index : Nat) (value : β) :
    (store.insert? index value).isSome ↔ index < limit := by
  unfold insert?
  split
  · rename_i room
    cases store.get? index <;> simp [room]
  · simp [*]

theorem get?_insert? (done : store.insert? index value = some next) :
    next.get? index = some ((store.get? index).getD value) := by
  obtain ⟨-, ⟨first, found, rfl⟩ | ⟨fresh, filled⟩⟩ := insert?_cases done
  · rw [found, Option.getD_some]
  · have inside : index < (grow store.places index).size := by
      rw [size_grow]
      omega
    rw [fresh, get?, Array.getD_eq_getD_getElem?, filled, Array.getElem?_setIfInBounds_self_of_lt inside]
    rfl

theorem get?_insert?_of_ne (done : store.insert? index value = some next) (apart : other ≠ index) :
    next.get? other = store.get? other := by
  obtain ⟨-, ⟨first, found, rfl⟩ | ⟨fresh, filled⟩⟩ := insert?_cases done
  · rfl
  · simp only [get?, Array.getD_eq_getD_getElem?]
    rw [filled, Array.getElem?_setIfInBounds_ne apart.symm, getElem?_grow]

theorem size_insert? (done : store.insert? index value = some next) (fresh : store.get? index = none) :
    next.size = store.size + 1 := by
  obtain ⟨-, ⟨first, found, -⟩ | ⟨-, filled⟩⟩ := insert?_cases done
  · rw [fresh] at found
    contradiction
  · have inside : index < (grow store.places index).size := by
      rw [size_grow]
      omega
    have hole : (grow store.places index)[index] = none := by
      have same := getElem?_grow store.places index index
      rw [Array.getElem?_eq_getElem inside, Option.getD_some] at same
      rw [same, ← Array.getD_eq_getD_getElem?]
      exact fresh
    rw [size, size, filled, Array.setIfInBounds_def, dif_pos inside, Array.countP_set, hole, countP_grow]
    rfl

theorem size_insert?_of_get? {first : β} (done : store.insert? index value = some next)
    (known : store.get? index = some first) : next.size = store.size := by
  obtain ⟨-, ⟨_, -, rfl⟩ | ⟨fresh, -⟩⟩ := insert?_cases done
  · rfl
  · rw [fresh] at known
    contradiction

instance : LawfulStore (DenseStore limit β) (· < limit) where
  get?_empty _ := rfl
  size_empty := rfl
  holds_of_get? := lt_of_get?
  isSome_insert?_iff := isSome_insert?_iff
  get?_insert? := get?_insert?
  get?_insert?_of_ne := get?_insert?_of_ne
  size_insert? := size_insert?
  size_insert?_of_get? := size_insert?_of_get?

end DenseStore

namespace SparseStore

variable {ι β : Type} [BEq ι] [LawfulBEq ι] [Hashable ι]

instance : LawfulStore (SparseStore ι β) fun _ => True where
  get?_empty _ := Std.HashMap.getElem?_empty
  size_empty := Std.HashMap.size_empty
  holds_of_get? _ := trivial
  isSome_insert?_iff _ _ _ := by simp [Store.insert?]
  get?_insert? {store next index value} done := by
    cases done
    change (store.values.insertIfNew index value)[index]? = some (store.values[index]?.getD value)
    rw [Std.HashMap.getElem?_insertIfNew]
    by_cases known : index ∈ store.values
    · simp [known]
    · simp [known]
  get?_insert?_of_ne {store next index other value} done apart := by
    cases done
    change (store.values.insertIfNew index value)[other]? = store.values[other]?
    simp [Std.HashMap.getElem?_insertIfNew, apart.symm]
  size_insert? {store next index value} done fresh := by
    cases done
    have unknown : index ∉ store.values := by
      rw [Std.HashMap.mem_iff_isSome_getElem?]
      intro known
      rw [Option.isSome_iff_ne_none] at known
      exact known fresh
    change (store.values.insertIfNew index value).size = store.values.size + 1
    rw [Std.HashMap.size_insertIfNew, if_neg unknown]
  size_insert?_of_get? {store next index value first} done known := by
    cases done
    have member : index ∈ store.values := by
      rw [Std.HashMap.mem_iff_isSome_getElem?, Option.isSome_iff_exists]
      exact ⟨first, known⟩
    change (store.values.insertIfNew index value).size = store.values.size
    rw [Std.HashMap.size_insertIfNew, if_pos member]

end SparseStore

end PuzzleCalendar.Memo
