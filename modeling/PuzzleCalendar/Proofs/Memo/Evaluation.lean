import Mathlib.Logic.Relation
import Mathlib.Order.WellFounded
import PuzzleCalendar.Memo.WeightedTable
import PuzzleCalendar.Proofs.Memo.Stores
import PuzzleCalendar.Puzzles.Adapters

/-! # Memoised evaluation agrees with plain recursion

A cache is faithful when it holds plain recursion's value for exactly the indices that were computed, each of
them once and after its dependencies. Resolving an index keeps a cache faithful and adds the indices that
the index leads to, unless one of them has no place in the store.
-/

namespace PuzzleCalendar.Memo

variable {σ ι β α γ : Type}

namespace Evaluation

variable (evaluation : Evaluation σ ι α) (rest : α → Evaluation σ ι γ) (cache : Cache σ ι)

theorem run_bind : (evaluation >>= rest).run.run cache =
    match evaluation.run.run cache with
    | (some result, next) => (rest result).run.run next
    | (none, next) => (none, next) := by
  rw [OptionT.run_bind, Option.elimM, StateT.run_bind]
  rcases evaluation.run.run cache with ⟨_ | result, next⟩
  · rfl
  · rfl

theorem run_get_bind (rest : Cache σ ι → Evaluation σ ι γ) :
    (get >>= rest).run.run cache = (rest cache).run.run cache := rfl

theorem run_modify_bind (change : Cache σ ι → Cache σ ι) (rest : Unit → Evaluation σ ι γ) :
    (modify change >>= rest).run.run cache = (rest ()).run.run (change cache) := rfl

theorem run_record [Store σ ι β] (index : ι) (value : β) : (record index value).run.run cache =
    match Store.insert? cache.store index value with
    | some store => (some (), ⟨store, index :: cache.computed⟩)
    | none => (none, ⟨cache.store, index :: cache.computed⟩) := by
  rw [record, run_modify_bind, run_get_bind]
  cases Store.insert? cache.store index value with
  | some store => rfl
  | none => rfl

end Evaluation

namespace Recurrence

/-- An index leads to another one by any number of dependencies. -/
def Reaches (recurrence : Recurrence ι β) (index other : ι) : Prop :=
  Relation.ReflTransGen (fun dep index => dep ∈ recurrence.deps index) other index

theorem reaches_iff (recurrence : Recurrence ι β) {index other : ι} :
    recurrence.Reaches index other ↔
      (∃ dep ∈ recurrence.deps index, recurrence.Reaches dep other) ∨ other = index := by
  rw [Reaches, Relation.ReflTransGen.cases_tail_iff, or_comm, eq_comm]
  simp only [Reaches, and_comm]

/-- Nothing that an index depends on leads back to it. -/
theorem not_reaches_of_mem_deps (recurrence : Recurrence ι β) {dep index : ι}
    (member : dep ∈ recurrence.deps index) : ¬ recurrence.Reaches dep index := by
  intro path
  exact recurrence.wellFounded.transGen.irrefl.irrefl index (Relation.TransGen.tail' path member)

/-- Where dependencies are smaller, an index leads to nothing greater than itself. -/
theorem Reaches.le {recurrence : Recurrence Nat β}
    (descends : ∀ {dep index}, dep ∈ recurrence.deps index → dep < index) {index other : Nat}
    (path : recurrence.Reaches index other) : other ≤ index := by
  induction path with
  | refl => exact Nat.le_refl other
  | tail _ member ih => exact Nat.le_trans ih (descends member).le

theorem value_eq (recurrence : Recurrence ι β) (index : ι) :
    recurrence.value index =
      recurrence.compute index ((recurrence.deps index).map recurrence.value) := by
  rw [value]
  congr 1
  exact List.attach_map_val

section Resolve

variable [Store σ ι β] (recurrence : Recurrence ι β) (index : ι) (cache : Cache σ ι)

/-- What is left to do for an index that the cache does not know. -/
def derive : Evaluation σ ι β := do
  let values ← (recurrence.deps index).mapM recurrence.resolve
  let value := recurrence.compute index values
  record index value
  pure value

theorem run_resolve : (recurrence.resolve index).run.run cache =
    match Store.get? cache.store index with
    | some value => (some value, cache)
    | none => (recurrence.derive index).run.run cache := by
  have plain : (recurrence.deps index).attach.mapM (fun dep => recurrence.resolve dep.1) =
      ((recurrence.deps index).mapM recurrence.resolve : Evaluation σ ι (List β)) := by
    conv_rhs => rw [← List.attach_map_subtype_val (recurrence.deps index), List.mapM_map]
    rfl
  rw [resolve, derive, plain, Evaluation.run_get_bind]
  cases Store.get? cache.store index with
  | some value => rfl
  | none => rfl

end Resolve

end Recurrence

/-- A cache holds plain recursion's values of the indices that were computed, each of which was computed once
and after its dependencies. -/
structure Faithful [Store σ ι β] (recurrence : Recurrence ι β) (cache : Cache σ ι) : Prop where
  get?_eq_some_iff (index : ι) (value : β) :
    Store.get? cache.store index = some value ↔ index ∈ cache.computed ∧ value = recurrence.value index
  nodup : cache.computed.Nodup
  deps_before {later earlier : List ι} {index : ι} (split : cache.computed = later ++ index :: earlier) :
    recurrence.deps index ⊆ earlier
  size_eq : cache.size = cache.computed.length

namespace Faithful

variable [Store σ ι β] {recurrence : Recurrence ι β} {cache : Cache σ ι} {index other : ι}

theorem get?_of_mem (faithful : Faithful recurrence cache) (known : index ∈ cache.computed) :
    Store.get? cache.store index = some (recurrence.value index) :=
  (faithful.get?_eq_some_iff index _).mpr ⟨known, rfl⟩

theorem get?_of_not_mem (faithful : Faithful recurrence cache) (unknown : index ∉ cache.computed) :
    Store.get? cache.store index = none := by
  rw [Option.eq_none_iff_forall_ne_some]
  intro value found
  exact unknown ((faithful.get?_eq_some_iff index value).mp found).1

/-- A cache that knows an index knows all that the index leads to. -/
theorem mem_of_reaches (faithful : Faithful recurrence cache) (known : index ∈ cache.computed)
    (path : recurrence.Reaches index other) : other ∈ cache.computed := by
  induction path using Relation.ReflTransGen.head_induction_on with
  | refl => exact known
  | head member _ ih =>
    obtain ⟨later, earlier, split⟩ := List.append_of_mem ih
    rw [split]
    exact List.mem_append_right later (List.mem_cons_of_mem _ (faithful.deps_before split member))

variable {Holds : ι → Prop} [lawful : LawfulStore σ Holds]

theorem holds_of_mem (faithful : Faithful recurrence cache) (known : index ∈ cache.computed) : Holds index :=
  LawfulStore.holds_of_get? (faithful.get?_of_mem known)

include lawful

theorem empty : Faithful recurrence (Cache.empty : Cache σ ι) where
  get?_eq_some_iff index value := by simp [Cache.empty, LawfulStore.get?_empty]
  nodup := List.nodup_nil
  deps_before split := by simp [Cache.empty] at split
  size_eq := LawfulStore.size_empty

/-- Filing the value of an index whose dependencies are known. -/
theorem insert (faithful : Faithful recurrence cache) (unknown : index ∉ cache.computed)
    (deps : recurrence.deps index ⊆ cache.computed) {store : σ}
    (done : Store.insert? cache.store index (recurrence.value index) = some store) :
    Faithful recurrence ⟨store, index :: cache.computed⟩ where
  get?_eq_some_iff other value := by
    by_cases same : other = index
    · subst same
      rw [LawfulStore.get?_insert? done, faithful.get?_of_not_mem unknown]
      simp [eq_comm]
    · rw [LawfulStore.get?_insert?_of_ne done same, faithful.get?_eq_some_iff]
      simp [same]
  nodup := List.nodup_cons.mpr ⟨unknown, faithful.nodup⟩
  deps_before split := by
    obtain ⟨-, same⟩ | ⟨later, -, split⟩ := List.cons_eq_append_iff.mp split
    · cases same
      exact deps
    · exact faithful.deps_before split
  size_eq := by
    have fresh := faithful.get?_of_not_mem unknown
    have size := faithful.size_eq
    rw [Cache.size] at size ⊢
    rw [LawfulStore.size_insert? done fresh, size, List.length_cons]

end Faithful

/-- From a cache, an evaluation gives the result and computes the indices it visits as far as the cache lacks
them. When one of them has no place, it stops. -/
def Resolves [Store σ ι β] (recurrence : Recurrence ι β) (Holds : ι → Prop) (cache : Cache σ ι)
    (evaluation : Evaluation σ ι α) (result : α) (visits : ι → Prop) : Prop :=
  ((∀ other, visits other → Holds other) ∧ ∃ next, evaluation.run.run cache = (some result, next) ∧
    Faithful recurrence next ∧ ∀ other, other ∈ next.computed ↔ other ∈ cache.computed ∨ visits other) ∨
  (∃ other, visits other ∧ ¬ Holds other) ∧ ∃ next, evaluation.run.run cache = (none, next)

namespace Resolves

variable [Store σ ι β] {Holds : ι → Prop} {recurrence : Recurrence ι β} {cache : Cache σ ι}

theorem pure (faithful : Faithful recurrence cache) (result : α) :
    Resolves recurrence Holds cache (Pure.pure result) result fun _ => False := by
  refine .inl ⟨fun _ none => none.elim, cache, rfl, faithful, fun other => ?_⟩
  rw [or_false]

theorem bind {evaluation : Evaluation σ ι α} {rest : α → Evaluation σ ι γ} {first : α} {result : γ}
    {visits visits' : ι → Prop} (before : Resolves recurrence Holds cache evaluation first visits)
    (after : ∀ middle, Faithful recurrence middle →
      (∀ other, other ∈ middle.computed ↔ other ∈ cache.computed ∨ visits other) →
      Resolves recurrence Holds middle (rest first) result visits') :
    Resolves recurrence Holds cache (evaluation >>= rest) result fun other =>
      visits other ∨ visits' other := by
  rw [Resolves, Evaluation.run_bind]
  obtain ⟨room, middle, ran, kept, grown⟩ | ⟨⟨other, visited, full⟩, next, stopped⟩ := before
  · rw [ran]
    obtain ⟨room', next, ran', kept', grown'⟩ | ⟨⟨other, visited, full⟩, stopped⟩ :=
      after middle kept grown
    · refine .inl ⟨fun other visited => visited.elim (room other) (room' other), next, ran', kept', ?_⟩
      intro other
      rw [grown', grown, or_assoc]
    · exact .inr ⟨⟨other, .inr visited, full⟩, stopped⟩
  · rw [stopped]
    exact .inr ⟨⟨other, .inl visited, full⟩, next, rfl⟩

theorem mapM {action : α → Evaluation σ ι γ} {value : α → γ} {visits : α → ι → Prop} {list : List α}
    (each : ∀ item ∈ list, ∀ cache, Faithful recurrence cache →
      Resolves recurrence Holds cache (action item) (value item) (visits item))
    (faithful : Faithful recurrence cache) :
    Resolves recurrence Holds cache (list.mapM action) (list.map value) fun other =>
      ∃ item ∈ list, visits item other := by
  induction list generalizing cache with
  | nil => simpa using pure faithful []
  | cons item list ih =>
    have visited : (fun other => ∃ member ∈ item :: list, visits member other) = fun other =>
        visits item other ∨ (∃ member ∈ list, visits member other) ∨ False := by
      funext other
      simp only [List.mem_cons, exists_eq_or_imp, or_false]
    rw [List.mapM_cons, List.map_cons, visited]
    apply (each item List.mem_cons_self cache faithful).bind
    intro middle kept _
    apply (ih (fun other member => each other (List.mem_cons_of_mem item member)) kept).bind
    intro next kept _
    exact pure kept _

end Resolves

variable [Store σ ι β] {Holds : ι → Prop} [LawfulStore σ Holds] {recurrence : Recurrence ι β}
  {cache : Cache σ ι} {index : ι}

/-- The value of an index is recorded after its dependencies. -/
theorem resolves_record (faithful : Faithful recurrence cache) (unknown : index ∉ cache.computed)
    (deps : recurrence.deps index ⊆ cache.computed) :
    Resolves recurrence Holds cache (record index (recurrence.value index)) () (· = index) := by
  have place := LawfulStore.isSome_insert?_iff cache.store index (recurrence.value index)
  rw [Resolves, Evaluation.run_record]
  cases done : Store.insert? cache.store index (recurrence.value index) with
  | some store =>
    have holds : Holds index := place.mp (Option.isSome_of_eq_some done)
    refine .inl ⟨fun other same => same ▸ holds, _, rfl, faithful.insert unknown deps done, ?_⟩
    intro other
    rw [List.mem_cons, or_comm]
  | none =>
    refine .inr ⟨⟨index, rfl, fun holds => ?_⟩, _, rfl⟩
    have inserted := place.mpr holds
    rw [done] at inserted
    contradiction

/-- Resolving an index visits all that it leads to. -/
theorem resolves_resolve (recurrence : Recurrence ι β) (index : ι) (cache : Cache σ ι)
    (faithful : Faithful recurrence cache) :
    Resolves recurrence Holds cache (recurrence.resolve index) (recurrence.value index)
      (recurrence.Reaches index) := by
  induction index using recurrence.wellFounded.induction generalizing cache with
  | _ index ih =>
    rw [Resolves, recurrence.run_resolve]
    by_cases known : index ∈ cache.computed
    · -- Nothing is computed: the cache knows all that the index leads to.
      have within {other : ι} (path : recurrence.Reaches index other) := faithful.mem_of_reaches known path
      rw [faithful.get?_of_mem known]
      refine .inl ⟨fun other path => faithful.holds_of_mem (within path), cache, rfl, faithful, ?_⟩
      intro other
      exact (or_iff_left_of_imp within).symm
    · have visits : recurrence.Reaches index = fun other =>
          (∃ dep ∈ recurrence.deps index, recurrence.Reaches dep other) ∨ other = index ∨ False := by
        funext other
        rw [recurrence.reaches_iff, or_false]
      rw [faithful.get?_of_not_mem known, visits]
      apply (Resolves.mapM ih faithful).bind
      intro middle kept grown
      have unknown : index ∉ middle.computed := by
        rw [grown]
        rintro (before | ⟨dep, member, path⟩)
        · exact known before
        · exact recurrence.not_reaches_of_mem_deps member path
      have deps : recurrence.deps index ⊆ middle.computed := by
        intro dep member
        exact (grown dep).mpr (.inr ⟨dep, member, .refl⟩)
      rw [← recurrence.value_eq index]
      exact (resolves_record kept unknown deps).bind fun next kept _ => .pure kept _

/-- The requests are answered in turn with plain recursion's values. The cache then knows exactly the indices
that they lead to. -/
def Answers (recurrence : Recurrence ι β) (requests : List ι) (cache : Cache σ ι) : Prop :=
  (requests.mapM recurrence.resolve).run.run Cache.empty = (some (requests.map recurrence.value), cache) ∧
    Faithful recurrence cache ∧
    ∀ index, index ∈ cache.computed ↔ ∃ request ∈ requests, recurrence.Reaches request index

/-- A store with room for all that the requests lead to answers them. With any other one the cache stops. -/
theorem answers_or_stops (recurrence : Recurrence ι β) (requests : List ι) :
    ((∀ request ∈ requests, ∀ index, recurrence.Reaches request index → Holds index) ∧
      ∃ cache : Cache σ ι, Answers recurrence requests cache) ∨
    (∃ request ∈ requests, ∃ index, recurrence.Reaches request index ∧ ¬ Holds index) ∧
      ∃ cache : Cache σ ι, (requests.mapM recurrence.resolve).run.run Cache.empty = (none, cache) := by
  have resolved : Resolves recurrence Holds (Cache.empty : Cache σ ι) (requests.mapM recurrence.resolve)
      (requests.map recurrence.value) fun index => ∃ request ∈ requests, recurrence.Reaches request index :=
    Resolves.mapM (fun request _ => resolves_resolve recurrence request) .empty
  obtain ⟨room, cache, ran, kept, grown⟩ | ⟨⟨index, ⟨request, member, path⟩, full⟩, stopped⟩ := resolved
  · refine .inl ⟨fun request member index path => room index ⟨request, member, path⟩, cache, ran, kept, ?_⟩
    intro index
    rw [grown]
    exact or_iff_right List.not_mem_nil
  · exact .inr ⟨⟨request, member, index, path, full⟩, stopped⟩

/-- With a store for indices of any kind, each sequence of requests is answered as plain recursion answers it.
With a row of places, this is so when the row can be long enough for all indices that the requests lead to;
otherwise a request stops. -/
theorem requests_agree_with_recursion :
    (∀ {ι β : Type} [BEq ι] [LawfulBEq ι] [Hashable ι] (recurrence : Recurrence ι β) (requests : List ι),
      ∃ cache : Cache (SparseStore ι β) ι, Answers recurrence requests cache) ∧
    ∀ {β : Type} {limit : Nat} (recurrence : Recurrence Nat β) (requests : List Nat),
      ((∀ request ∈ requests, ∀ index, recurrence.Reaches request index → index < limit) →
        ∃ cache : Cache (DenseStore limit β) Nat, Answers recurrence requests cache) ∧
      ((∃ request ∈ requests, ∃ index, recurrence.Reaches request index ∧ limit ≤ index) →
        ∃ cache : Cache (DenseStore limit β) Nat,
          (requests.mapM recurrence.resolve).run.run Cache.empty = (none, cache)) := by
  constructor
  · intro ι β _ _ _ recurrence requests
    obtain ⟨-, answered⟩ | ⟨⟨_, _, _, _, full⟩, -⟩ :=
      answers_or_stops (σ := SparseStore ι β) recurrence requests
    · exact answered
    · exact absurd trivial full
  · intro β limit recurrence requests
    have outcome := answers_or_stops (σ := DenseStore limit β) recurrence requests
    constructor
    · intro room
      obtain ⟨-, answered⟩ | ⟨⟨request, member, index, path, full⟩, -⟩ := outcome
      · exact answered
      · exact absurd (room request member index path) full
    · rintro ⟨request, member, index, path, full⟩
      obtain ⟨room, -⟩ | ⟨-, stopped⟩ := outcome
      · exact absurd (room request member index path) (Nat.not_lt.mpr full)
      · exact stopped

/-- The places of a chain of adapters, requested from the end of the chain and again in its middle. -/
theorem requests_agree_with_recursion_arrangements :
    (∃ cache : Cache (SparseStore Nat (Option Nat)) Nat,
      Answers (Adapters.arrangements #[0, 1, 2, 3, 6]) [4, 2] cache) ∧
    (∃ cache : Cache (DenseStore 5 (Option Nat)) Nat,
      Answers (Adapters.arrangements #[0, 1, 2, 3, 6]) [4, 2] cache) ∧
    ∃ cache : Cache (DenseStore 4 (Option Nat)) Nat,
      ([4, 2].mapM (Adapters.arrangements #[0, 1, 2, 3, 6]).resolve).run.run Cache.empty = (none, cache) := by
  refine ⟨requests_agree_with_recursion.1 _ _, (requests_agree_with_recursion.2 _ _).1 ?_,
    (requests_agree_with_recursion.2 _ _).2 ⟨4, List.mem_cons_self, 4, .refl, Nat.le_refl 4⟩⟩
  have small : ∀ request ∈ [4, 2], request ≤ 4 := by decide
  intro request member index path
  have below : index ≤ request := path.le Adapters.lt_of_mem_origins
  have := small request member
  omega

/-- The greatest word has no place in a row of any length, though plain recursion gives it a value. -/
theorem greatest_word_has_no_place :
    (WeightedTable.recurrence ([] : List (Node Nat))).value 18446744073709551615 = 0 ∧
    ∃ cache : Cache (DenseStore greatestLength Nat) Nat,
      ([18446744073709551615].mapM (WeightedTable.recurrence []).resolve).run.run Cache.empty = (none, cache) := by
  constructor
  · rw [Recurrence.value_eq]
    rfl
  · obtain ⟨room, -⟩ | ⟨-, stopped⟩ := answers_or_stops (σ := DenseStore greatestLength Nat)
      (WeightedTable.recurrence []) [18446744073709551615]
    · exact absurd (room _ List.mem_cons_self _ .refl) (Nat.lt_irrefl _)
    · exact stopped

end PuzzleCalendar.Memo
