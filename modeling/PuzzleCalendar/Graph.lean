import PuzzleCalendar.Marks
import PuzzleCalendar.Number.Total

/-! # Directed graphs

A graph is the list of its edges. Two searches walk it: one collects the places that lead to a target,
the other one visits what a place leads to, depth first, until it meets a place on the path that it is on,
which closes a cycle. When it meets none, every walk from the place ends. Each search marks places, and no
place is marked twice.
-/

namespace PuzzleCalendar

/-- A directed graph on the places that its edges name. -/
structure Graph (V : Type) where
  edges : List (V × V)

namespace Graph

variable {V : Type} [DecidableEq V]

/-- The ends of all edges. -/
def places (graph : Graph V) : List V :=
  graph.edges.flatMap fun edge => [edge.1, edge.2]

/-- The places that an edge leads to from `place`, in the order of the edges. -/
def successors (graph : Graph V) (place : V) : List V :=
  graph.edges.filterMap fun edge => if edge.1 = place then some edge.2 else none

/-- The places that an edge leads from to `place`, in the order of the edges. -/
def predecessors (graph : Graph V) (place : V) : List V :=
  graph.edges.filterMap fun edge => if edge.2 = place then some edge.1 else none

theorem mem_successors {graph : Graph V} {place next : V} :
    next ∈ graph.successors place ↔ (place, next) ∈ graph.edges := by
  simp only [successors, List.mem_filterMap, Option.ite_none_right_eq_some, Option.some.injEq]
  constructor
  · rintro ⟨⟨source, target⟩, member, rfl, rfl⟩
    exact member
  · intro member
    exact ⟨_, member, rfl, rfl⟩

theorem mem_predecessors {graph : Graph V} {place previous : V} :
    previous ∈ graph.predecessors place ↔ (previous, place) ∈ graph.edges := by
  simp only [predecessors, List.mem_filterMap, Option.ite_none_right_eq_some, Option.some.injEq]
  constructor
  · rintro ⟨⟨source, target⟩, member, rfl, rfl⟩
    exact member
  · intro member
    exact ⟨_, member, rfl, rfl⟩

omit [DecidableEq V] in
theorem mem_places_of_edge {graph : Graph V} {source target : V}
    (edge : (source, target) ∈ graph.edges) : source ∈ graph.places ∧ target ∈ graph.places := by
  simp only [places, List.mem_flatMap]
  exact ⟨⟨_, edge, by simp⟩, ⟨_, edge, by simp⟩⟩

theorem successors_eq_nil {graph : Graph V} {place : V} (outside : place ∉ graph.places) :
    graph.successors place = [] := by
  apply List.eq_nil_iff_forall_not_mem.mpr
  intro next member
  exact outside (mem_places_of_edge (mem_successors.mp member)).1

/-- The predecessors of `place` that are neither the target nor seen, each of them once. -/
def fresh (graph : Graph V) (target : V) (seen : List V) (place : V) : List V :=
  ((graph.predecessors place).filter fun previous =>
    previous ≠ target && !seen.contains previous).eraseDups

theorem mem_fresh {graph : Graph V} {target place previous : V} {seen : List V} :
    previous ∈ graph.fresh target seen place ↔
      (previous, place) ∈ graph.edges ∧ previous ≠ target ∧ previous ∉ seen := by
  simp [fresh, List.mem_eraseDups, mem_predecessors]

/-- Adds to `seen` what leads to the places of the queue. -/
def collect (graph : Graph V) (target : V) (seen : List V) : List V → List V
  | [] => seen
  | place :: queue =>
    graph.collect target (graph.fresh target seen place ++ seen)
      (queue ++ graph.fresh target seen place)
termination_by queue => (unmarked graph.places seen, queue.length)
decreasing_by
  cases found : graph.fresh target seen place with
  | nil =>
    simp only [List.nil_append, List.append_nil, List.length_cons]
    exact Prod.Lex.right _ (Nat.lt_succ_self _)
  | cons first rest =>
    have member : first ∈ graph.fresh target seen place := by simp [found]
    obtain ⟨edge, _, unseen⟩ := mem_fresh.mp member
    exact Prod.Lex.left _ _ (unmarked_lt_of_subset (by simp) (mem_places_of_edge edge).1 unseen
      (by simp))

/-- The places other than the target that lead to it. -/
def leadingTo (graph : Graph V) (target : V) : List V :=
  graph.collect target [] [target]

/-- What a depth-first search has still to do at a place. -/
inductive Task (V : Type) where
  | enter (place : V)
  | leave (place : V)
deriving DecidableEq, Repr

/-- The place that a task is about. -/
def Task.place : Task V → V
  | .enter place => place
  | .leave place => place

/-- Entering a place is followed by leaving it. -/
def Task.weight : Task V → Nat
  | .enter _ => 2
  | .leave _ => 1

/-- Works off tasks. `entered` and `left` hold the places entered and left so far, the latest first. A
place that was entered and not left is on the current path, and meeting it again closes a cycle. -/
def explore (graph : Graph V) (entered left : List V) : List (Task V) → Option V
  | [] => none
  | .leave place :: tasks => graph.explore entered (place :: left) tasks
  | .enter place :: tasks =>
    if place ∈ entered then
      if place ∈ left then graph.explore entered left tasks else some place
    else
      match (graph.successors place).find? fun next =>
          (place :: entered).contains next && !left.contains next with
      | some again => some again
      | none =>
        let ahead := (graph.successors place).filter fun next => !(place :: entered).contains next
        graph.explore (place :: entered) left
          ((ahead.map Task.enter).reverse ++ Task.leave place :: tasks)
termination_by tasks => (unmarked graph.places entered, Number.total (tasks.map Task.weight))
decreasing_by
  · exact Prod.Lex.right _ (by simp [Task.weight])
  · exact Prod.Lex.right _ (by simp [Task.weight])
  · by_cases member : place ∈ graph.places
    · exact Prod.Lex.left _ _ (unmarked_cons_lt member (by assumption))
    · have same : unmarked graph.places (place :: entered) = unmarked graph.places entered := by
        unfold unmarked
        apply List.countP_congr
        intro other inside
        have different : other ≠ place := fun equal => member (equal ▸ inside)
        simp [different]
      simp only [successors_eq_nil member, List.filter_nil, List.map_nil, List.reverse_nil,
        List.nil_append, same]
      exact Prod.Lex.right _ (by simp [Task.weight])

/-- A place on a cycle among those that `start` leads to, when there is one. -/
def cycleFrom (graph : Graph V) (start : V) : Option V :=
  graph.explore [] [] [.enter start]

/-- A place from which every walk along edges ends. -/
def Grounded (graph : Graph V) (place : V) : Prop :=
  Acc (fun next place => (place, next) ∈ graph.edges) place

omit [DecidableEq V] in
theorem Grounded.next {graph : Graph V} {place next : V} (grounded : graph.Grounded place)
    (edge : (place, next) ∈ graph.edges) : graph.Grounded next :=
  Acc.inv grounded edge

/-- Each task that leaves a place comes after all places below it were left: they are known, or tasks before
it leave them. -/
def Covers (graph : Graph V) (known : List V) : List (Task V) → Prop
  | [] => True
  | .enter place :: tasks => graph.Covers (place :: known) tasks
  | .leave place :: tasks => graph.successors place ⊆ known ∧ graph.Covers (place :: known) tasks

theorem Covers.mono {graph : Graph V} {known more : List V} {tasks : List (Task V)}
    (covers : graph.Covers known tasks) (subset : known ⊆ more) : graph.Covers more tasks := by
  induction tasks generalizing known more with
  | nil => trivial
  | cons task tasks ih =>
    cases task with
    | enter place => exact ih covers (List.cons_subset_cons place subset)
    | leave place =>
      exact ⟨fun next member => subset (covers.1 member), ih covers.2 (List.cons_subset_cons place subset)⟩

theorem covers_append_enter {graph : Graph V} {known ahead : List V} {tasks : List (Task V)} :
    graph.Covers known (ahead.map Task.enter ++ tasks) ↔ graph.Covers (ahead.reverse ++ known) tasks := by
  induction ahead generalizing known with
  | nil => rfl
  | cons place ahead ih =>
    rw [List.map_cons, List.cons_append, Covers, ih, List.reverse_cons, List.append_assoc,
      List.singleton_append]

/-- A search that ends without a cycle has seen every walk end. -/
theorem grounded_of_explore {graph : Graph V} {entered left : List V} {tasks : List (Task V)}
    (found : graph.explore entered left tasks = none) (grounded : ∀ place ∈ left, graph.Grounded place)
    (covers : graph.Covers left tasks) : ∀ task ∈ tasks, graph.Grounded task.place := by
  fun_induction explore graph entered left tasks with
  | case1 => simp
  | case2 entered left place tasks ih =>
    have here : graph.Grounded place :=
      Acc.intro place fun next edge => grounded next (covers.1 (mem_successors.mpr edge))
    have later := ih found (List.forall_mem_cons.mpr ⟨here, grounded⟩) covers.2
    exact List.forall_mem_cons.mpr ⟨here, later⟩
  | case3 entered left place tasks known gone ih =>
    have rest : graph.Covers (place :: left) tasks := covers
    have same := rest.mono (List.cons_subset.mpr ⟨gone, List.Subset.refl left⟩)
    exact List.forall_mem_cons.mpr ⟨grounded place gone, ih found grounded same⟩
  | case4 => contradiction
  | case5 => contradiction
  | case6 entered left place tasks fresh none ahead ih =>
    rw [← List.map_reverse] at found ih
    have below : graph.successors place ⊆ ahead.reverse.reverse ++ left := by
      intro next member
      rw [List.reverse_reverse, List.mem_append]
      by_cases marked : next ∈ place :: entered
      · have gone := List.find?_eq_none.mp none next member
        simp only [List.contains_iff_mem.mpr marked, Bool.true_and, Bool.not_eq_true', Bool.not_eq_false,
          List.contains_iff_mem] at gone
        exact .inr gone
      · exact .inl (List.mem_filter.mpr ⟨member, by simpa using marked⟩)
    have rest : graph.Covers (place :: left) tasks := covers
    have after := rest.mono (List.cons_subset_cons place (List.subset_append_right ahead.reverse.reverse left))
    have all := ih found grounded (covers_append_enter.mpr ⟨below, after⟩)
    rw [List.forall_mem_append, List.forall_mem_cons] at all
    exact List.forall_mem_cons.mpr all.2

theorem grounded_of_cycleFrom {graph : Graph V} {start : V} (none : graph.cycleFrom start = none) :
    graph.Grounded start :=
  grounded_of_explore none (by simp) trivial _ List.mem_cons_self

end Graph

end PuzzleCalendar
