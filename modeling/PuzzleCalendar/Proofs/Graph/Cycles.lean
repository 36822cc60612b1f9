import Mathlib.Logic.Relation
import PuzzleCalendar.Graph

/-! # The depth-first search for a cycle is exact

The places that are to be left lie on one walk from the start, and each task of the search is about the start
or about a next place of that walk. A place that was entered and not left is still to be left, so an edge back
to it closes a cycle. Without such an edge every walk from the start ends, and none gets onto a cycle.
-/

namespace PuzzleCalendar.Graph

open Relation

variable {V : Type}

/-- An edge leads from a place to another one. -/
def Leads (graph : Graph V) (place next : V) : Prop := (place, next) ∈ graph.edges

/-- Any number of edges lead from a place to another one. -/
def Reaches (graph : Graph V) : V → V → Prop := ReflTransGen graph.Leads

/-- One or more edges lead from a place back to it. -/
def OnCycle (graph : Graph V) (place : V) : Prop := TransGen graph.Leads place place

/-- The place that is left first among those that tasks leave. -/
def innermost? : List (Task V) → Option V
  | [] => none
  | .enter _ :: tasks => innermost? tasks
  | .leave place :: _ => some place

/-- A task is about the start, or an edge leads to its place from the first one that is left after it. -/
def Stacked (graph : Graph V) (start : V) : List (Task V) → Prop
  | [] => True
  | task :: tasks =>
    (innermost? tasks).elim (task.place = start) (graph.Leads · task.place) ∧ graph.Stacked start tasks

namespace Stacked

variable {graph : Graph V} {start : V} {task : Task V} {tasks : List (Task V)}

/-- The start reaches the place of the first task. -/
theorem reaches (stacked : graph.Stacked start (task :: tasks)) : graph.Reaches start task.place := by
  induction tasks generalizing task with
  | nil =>
    have same : task.place = start := stacked.1
    rw [same]
    exact .refl
  | cons next tasks ih =>
    cases next with
    | enter other => exact ih ⟨stacked.1, stacked.2.2⟩
    | leave last =>
      have edge : graph.Leads last task.place := stacked.1
      exact (ih stacked.2).tail edge

/-- Each place that is left later reaches the place of the first task. -/
theorem transGen {place : V} (stacked : graph.Stacked start (task :: tasks)) (later : .leave place ∈ tasks) :
    TransGen graph.Leads place task.place := by
  induction tasks generalizing task with
  | nil => contradiction
  | cons next tasks ih =>
    cases next with
    | enter other => exact ih ⟨stacked.1, stacked.2.2⟩ ((List.mem_cons.mp later).resolve_left nofun)
    | leave last =>
      have edge : graph.Leads last task.place := stacked.1
      obtain same | later := List.mem_cons.mp later
      · cases same
        exact .single edge
      · exact (ih stacked.2 later).tail edge

/-- Entering places that follow on the innermost one. -/
theorem append {last : V} {ahead : List V} (stacked : graph.Stacked start tasks)
    (inner : innermost? tasks = some last) (edges : ∀ next ∈ ahead, graph.Leads last next) :
    graph.Stacked start (ahead.map Task.enter ++ tasks) ∧
      innermost? (ahead.map Task.enter ++ tasks) = some last := by
  induction ahead with
  | nil => exact ⟨stacked, inner⟩
  | cons next ahead ih =>
    obtain ⟨edge, edges⟩ := List.forall_mem_cons.mp edges
    obtain ⟨stacked, inner⟩ := ih edges
    have step : (innermost? (ahead.map Task.enter ++ tasks)).elim (next = start) (graph.Leads · next) := by
      rw [inner]
      exact edge
    exact ⟨⟨step, stacked⟩, inner⟩

end Stacked

theorem leave_mem_enter_cons {place other : V} {tasks : List (Task V)} :
    .leave place ∈ Task.enter other :: tasks ↔ .leave place ∈ tasks := by
  simp

variable [DecidableEq V] {graph : Graph V} {start : V}

/-- A search whose open places are still to be left finds only a place that the start reaches and that is on
a cycle. -/
theorem onCycle_of_explore {entered left : List V} {tasks : List (Task V)} {found : V}
    (ended : graph.explore entered left tasks = some found) (stacked : graph.Stacked start tasks)
    (opened : ∀ place ∈ entered, place ∈ left ∨ .leave place ∈ tasks) :
    graph.Reaches start found ∧ graph.OnCycle found := by
  fun_induction explore graph entered left tasks with
  | case1 => contradiction
  | case2 entered left place tasks ih =>
    apply ih ended stacked.2
    intro other member
    have here := opened other member
    rw [List.mem_cons, Task.leave.injEq] at here
    rw [List.mem_cons, or_assoc, or_left_comm]
    exact here
  | case3 entered left place tasks known gone ih =>
    apply ih ended stacked.2
    intro other member
    exact (opened other member).imp_right leave_mem_enter_cons.mp
  | case4 entered left place tasks known unfinished =>
    cases ended
    -- The place is on the walk below the task that enters it again.
    have later := leave_mem_enter_cons.mp ((opened _ known).resolve_left unfinished)
    exact ⟨stacked.reaches, stacked.transGen later⟩
  | case5 entered left place tasks fresh again met =>
    cases ended
    have marked := List.find?_some met
    simp only [Bool.and_eq_true, List.contains_iff_mem, Bool.not_eq_true', ← Bool.not_eq_true] at marked
    obtain ⟨known, unfinished⟩ := marked
    have edge : graph.Leads place found := mem_successors.mp (List.mem_of_find?_eq_some met)
    -- Entering the place again would be the next step of the walk after `place`.
    have onto : graph.Stacked start (.enter found :: .leave place :: tasks) := ⟨edge, stacked⟩
    have later : .leave found ∈ Task.leave place :: tasks := by
      obtain rfl | known := List.mem_cons.mp known
      · exact List.mem_cons_self
      · exact List.mem_cons_of_mem _ (leave_mem_enter_cons.mp ((opened _ known).resolve_left unfinished))
    exact ⟨onto.reaches, onto.transGen later⟩
  | case6 entered left place tasks fresh none ahead ih =>
    rw [← List.map_reverse] at ended ih
    have onto : graph.Stacked start (.leave place :: tasks) := stacked
    have edges : ∀ next ∈ ahead.reverse, graph.Leads place next := by
      intro next member
      exact mem_successors.mp (List.mem_filter.mp (List.mem_reverse.mp member)).1
    apply ih ended (onto.append rfl edges).1
    intro other member
    rw [List.mem_append]
    obtain rfl | known := List.mem_cons.mp member
    · exact .inr (.inr List.mem_cons_self)
    · exact (opened other known).imp_right fun later =>
        .inr (List.mem_cons_of_mem _ (leave_mem_enter_cons.mp later))

/-- The place that is found is one that the start reaches and that is on a cycle. -/
theorem onCycle_of_cycleFrom {found : V} (ended : graph.cycleFrom start = some found) :
    graph.Reaches start found ∧ graph.OnCycle found :=
  onCycle_of_explore ended ⟨rfl, trivial⟩ nofun

omit [DecidableEq V] in
theorem Grounded.of_reaches {place : V} (grounded : graph.Grounded start) (path : graph.Reaches start place) :
    graph.Grounded place := by
  induction path with
  | refl => exact grounded
  | tail _ edge ih => exact ih.next edge

omit [DecidableEq V] in
/-- A walk that goes round on a cycle does not end. -/
theorem Grounded.not_onCycle {place : V} (grounded : graph.Grounded place) : ¬ graph.OnCycle place := by
  induction grounded with
  | intro place _ ih =>
    intro cycle
    obtain ⟨next, edge, back⟩ := TransGen.head'_iff.mp cycle
    exact ih next edge (TransGen.tail' back edge)

/-- No place is found exactly when the start reaches none on a cycle. -/
theorem cycleFrom_eq_none_iff :
    graph.cycleFrom start = none ↔ ∀ place, graph.Reaches start place → ¬ graph.OnCycle place := by
  constructor
  · intro ended place path
    exact ((grounded_of_cycleFrom ended).of_reaches path).not_onCycle
  · intro clear
    rw [Option.eq_none_iff_forall_ne_some]
    intro found ended
    obtain ⟨path, cycle⟩ := onCycle_of_cycleFrom ended
    exact clear found path cycle

end PuzzleCalendar.Graph
