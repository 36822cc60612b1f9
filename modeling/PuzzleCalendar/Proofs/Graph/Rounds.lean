import Mathlib.Algebra.BigOperators.Group.Finset.Piecewise
import Mathlib.Algebra.Order.BigOperators.Group.Finset
import PuzzleCalendar.Graph

/-! # The rounds of the depth-first search for a cycle

In a round the search takes its first task. A task that enters a fresh place brings on one that leaves it and at
most one for each edge from there, and no place is entered twice. So the tasks at hand, with those that places
not yet entered can still bring on, become fewer in every round. They are few at the start, where at most one
place is not the end of an edge, and the search ends soon.
-/

namespace PuzzleCalendar.Graph

/-- What a search knows between two rounds: the places entered and left so far, the latest first, and its
tasks. -/
structure Search (V : Type) where
  entered : List V
  left : List V
  tasks : List (Task V)
deriving DecidableEq

namespace Search

variable {V : Type}

/-- A search that has marked nothing and is to enter one place. -/
def start (place : V) : Search V := ⟨[], [], [.enter place]⟩

variable [DecidableEq V]

/-- Puts the fresh ones among some next places on the tasks, one after another. A place that was entered and
not left ends the search. -/
def push (entered left : List V) : List V → List (Task V) → Option V ⊕ List (Task V)
  | [], tasks => .inr tasks
  | next :: others, tasks =>
    if next ∈ entered then
      if next ∈ left then push entered left others tasks else .inl (some next)
    else push entered left others (.enter next :: tasks)

/-- One round, which ends the search with what it has found or leaves the search at other tasks. -/
def round (graph : Graph V) : Search V → Option V ⊕ Search V
  | ⟨_, _, []⟩ => .inl none
  | ⟨entered, left, .leave place :: tasks⟩ => .inr ⟨entered, place :: left, tasks⟩
  | ⟨entered, left, .enter place :: tasks⟩ =>
    if place ∈ entered then
      if place ∈ left then .inr ⟨entered, left, tasks⟩ else .inl (some place)
    else
      (push (place :: entered) left (graph.successors place) (.leave place :: tasks)).map id
        (Search.mk (place :: entered) left)

/-- As many rounds as a number says, unless the search ends before. -/
def run (graph : Graph V) : Nat → Search V → Option V ⊕ Search V
  | 0, search => .inr search
  | rounds + 1, search => (search.round graph).elim .inl (run graph rounds)

/-- Pushing one place after another ends at the first open one, and otherwise it pushes the fresh ones, the last
one on top. -/
theorem push_eq (entered left places : List V) (tasks : List (Task V)) :
    push entered left places tasks =
      match places.find? fun next => entered.contains next && !left.contains next with
      | some again => .inl (some again)
      | none => .inr (((places.filter fun next => !entered.contains next).map Task.enter).reverse ++ tasks) := by
  induction places generalizing tasks with
  | nil => rfl
  | cons next others ih =>
    by_cases known : next ∈ entered
    · by_cases gone : next ∈ left
      · simp [push, known, gone, ih]
      · simp [push, known, gone]
    · simp [push, known, ih]

/-- When the search goes on, some of the next places were pushed. -/
theorem exists_of_push_eq_inr {entered left places : List V} {tasks later : List (Task V)}
    (pushed : push entered left places tasks = .inr later) :
    ∃ ahead : List V, ahead.Sublist places ∧ later = ahead.reverse.map Task.enter ++ tasks := by
  rw [push_eq] at pushed
  split at pushed
  · contradiction
  · cases pushed
    exact ⟨_, List.filter_sublist, by rw [List.map_reverse]⟩

/-- The search goes on as its next round says. -/
theorem explore_eq_round (graph : Graph V) (search : Search V) :
    graph.explore search.entered search.left search.tasks =
      (search.round graph).elim id fun next => graph.explore next.entered next.left next.tasks := by
  obtain ⟨entered, left, _ | ⟨place | place, tasks⟩⟩ := search
  · rw [explore]
    rfl
  · rw [explore, round, push_eq]
    split
    · split <;> rfl
    · split <;> rename_i met <;> simp only [met] <;> rfl
  · rw [explore]
    rfl

section Weight

variable {graph : Graph V} {places : Finset V} {search : Search V}

/-- The tasks at hand and those that places not yet entered can bring on: one that leaves the place and one for
each edge from it. -/
def weight (graph : Graph V) (places : Finset V) (search : Search V) : Nat :=
  search.tasks.length + ∑ place ∈ places \ search.entered.toFinset, ((graph.successors place).length + 1)

/-- The search has tasks at some places only, and no edge leads away from those. -/
structure Within (graph : Graph V) (places : Finset V) (search : Search V) : Prop where
  task : ∀ task ∈ search.tasks, task.place ∈ places
  next : ∀ place ∈ places, ∀ next ∈ graph.successors place, next ∈ places

/-- What all places not yet entered can bring on is what one of them can and what the others can. -/
theorem add_sum_entered {entered : List V} {place : V} (inside : place ∈ places) (fresh : place ∉ entered)
    (share : V → Nat) :
    share place + ∑ other ∈ places \ (place :: entered).toFinset, share other =
      ∑ other ∈ places \ entered.toFinset, share other := by
  rw [List.toFinset_cons, Finset.sdiff_insert]
  apply Finset.add_sum_erase
  exact Finset.mem_sdiff.mpr ⟨inside, fun known => fresh (List.mem_toFinset.mp known)⟩

/-- Entering a fresh place keeps the tasks at the same places and takes from the weight. -/
theorem Within.expand {entered left : List V} {place : V} {tasks later : List (Task V)}
    (within : Search.Within graph places ⟨entered, left, .enter place :: tasks⟩) (fresh : place ∉ entered)
    (pushed : push (place :: entered) left (graph.successors place) (.leave place :: tasks) = .inr later) :
    Search.Within graph places ⟨place :: entered, left, later⟩ ∧
      weight graph places ⟨place :: entered, left, later⟩ <
        weight graph places ⟨entered, left, .enter place :: tasks⟩ := by
  obtain ⟨here, others⟩ := List.forall_mem_cons.mp within.task
  obtain ⟨ahead, chosen, rfl⟩ := exists_of_push_eq_inr pushed
  refine ⟨⟨?_, within.next⟩, ?_⟩
  · simp only [List.forall_mem_append, List.forall_mem_cons, List.forall_mem_map, List.mem_reverse]
    exact ⟨fun next member => within.next place here next (chosen.subset member), here, others⟩
  · -- The tasks that were pushed are paid for by the place, which can bring on nothing any more.
    have few := chosen.length_le
    have taken := add_sum_entered here fresh fun place => (graph.successors place).length + 1
    simp only [weight, Task.place, List.length_append, List.length_reverse, List.length_map,
      List.length_cons] at taken ⊢
    omega

/-- Every round with which the search goes on does so. -/
theorem Within.round (within : search.Within graph places) {later : Search V}
    (ran : search.round graph = .inr later) :
    later.Within graph places ∧ later.weight graph places < search.weight graph places := by
  obtain ⟨entered, left, _ | ⟨place | place, tasks⟩⟩ := search
  · contradiction
  · rw [Search.round] at ran
    split at ran
    · split at ran
      · cases ran
        exact ⟨⟨(List.forall_mem_cons.mp within.task).2, within.next⟩, by simp [weight]⟩
      · contradiction
    · next fresh =>
      cases pushed : push (place :: entered) left (graph.successors place) (.leave place :: tasks) with
      | inl again =>
        rw [pushed] at ran
        contradiction
      | inr tasks =>
        rw [pushed] at ran
        cases ran
        exact within.expand fresh pushed
  · cases ran
    exact ⟨⟨(List.forall_mem_cons.mp within.task).2, within.next⟩, by simp [weight]⟩

/-- More rounds than the search has weight end it with what it finds. -/
theorem Within.run (within : search.Within graph places) {rounds : Nat}
    (enough : search.weight graph places < rounds) :
    search.run graph rounds = .inl (graph.explore search.entered search.left search.tasks) := by
  induction rounds generalizing search with
  | zero => contradiction
  | succ rounds ih =>
    rw [Search.run, explore_eq_round]
    cases ran : search.round graph with
    | inl found => rfl
    | inr later =>
      obtain ⟨within, less⟩ := within.round ran
      exact ih within (by omega)

end Weight

/-- Different places have at most as many next places as there are edges. -/
theorem sum_length_successors_le (graph : Graph V) (places : Finset V) :
    ∑ place ∈ places, (graph.successors place).length ≤ graph.edges.length := by
  obtain ⟨edges⟩ := graph
  induction edges with
  | nil => simp [successors]
  | cons edge edges ih =>
    have split (place : V) : (successors ⟨edge :: edges⟩ place).length =
        (if edge.1 = place then 1 else 0) + (successors ⟨edges⟩ place).length := by
      by_cases here : edge.1 = place <;> simp [successors, here, Nat.add_comm]
    have once : (∑ place ∈ places, if edge.1 = place then 1 else 0) ≤ 1 := by
      rw [Finset.sum_ite_eq]
      split <;> simp
    calc
      _ = (∑ place ∈ places, if edge.1 = place then 1 else 0) +
          ∑ place ∈ places, (successors ⟨edges⟩ place).length := by
        simp only [split, Finset.sum_add_distrib]
      _ ≤ 1 + edges.length := Nat.add_le_add once ih
      _ = (edge :: edges).length := by rw [List.length_cons, Nat.add_comm]

/-- The places that a search can enter: its start and the ends of all edges. -/
def enterable (graph : Graph V) (start : V) : Finset V :=
  insert start (graph.edges.map Prod.snd).toFinset

theorem within_start (graph : Graph V) (place : V) :
    (Search.start place).Within graph (enterable graph place) where
  task task member := by
    cases List.mem_singleton.mp member
    exact Finset.mem_insert_self _ _
  next previous _ next follows := by
    apply Finset.mem_insert_of_mem
    exact List.mem_toFinset.mpr (List.mem_map.mpr ⟨_, mem_successors.mp follows, rfl⟩)

theorem weight_start_le (graph : Graph V) (place : V) :
    (Search.start place).weight graph (enterable graph place) ≤ 2 * graph.edges.length + 2 := by
  have edges := sum_length_successors_le graph (enterable graph place)
  have ends : (enterable graph place).card ≤ graph.edges.length + 1 := by
    calc
      _ ≤ (graph.edges.map Prod.snd).toFinset.card + 1 := Finset.card_insert_le _ _
      _ ≤ (graph.edges.map Prod.snd).length + 1 := Nat.add_le_add_right (List.toFinset_card_le _) 1
      _ = graph.edges.length + 1 := by rw [List.length_map]
  simp only [weight, start, List.length_singleton, List.toFinset_nil, Finset.sdiff_empty,
    Finset.sum_add_distrib, ← Finset.card_eq_sum_ones]
  omega

/-- The search ends within two rounds for each edge and three further ones. -/
theorem run_start (graph : Graph V) (place : V) :
    (Search.start place).run graph (2 * graph.edges.length + 3) = .inl (graph.cycleFrom place) := by
  apply (within_start graph place).run
  have light := weight_start_le graph place
  omega

end Search

end PuzzleCalendar.Graph
