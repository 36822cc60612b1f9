import Mathlib.Logic.Basic
import PuzzleCalendar.Proofs.Graph.Cycles

/-! # The breadth-first search for what leads to a target is exact

Every place that was seen leads to the target, and a place with a predecessor that was not seen is still in the
queue. When the queue is empty, no edge leads from outside to the target or to a place that was seen, so every
walk that ends at the target starts at the target or at a place that was seen.
-/

namespace PuzzleCalendar.Graph

open Relation

variable {V : Type}

/-- What the search keeps. Its places are the target and those that were seen. -/
structure Collects (graph : Graph V) (target : V) (seen queue : List V) : Prop where
  once : seen.Nodup
  leads : ∀ place ∈ seen, place ≠ target ∧ TransGen graph.Leads place target
  queued : ∀ place ∈ queue, place ∈ target :: seen
  finished : ∀ place ∈ target :: seen, place ∉ queue →
    ∀ previous, graph.Leads previous place → previous ∈ target :: seen

variable {graph : Graph V} {target place : V} {seen queue : List V}

namespace Collects

theorem start (graph : Graph V) (target : V) : graph.Collects target [] [target] where
  once := List.nodup_nil
  leads := nofun
  queued _ := id
  finished _ member outside := absurd member outside

theorem reaches (collects : graph.Collects target seen queue) (member : place ∈ target :: seen) :
    graph.Reaches place target := by
  obtain rfl | seen := List.mem_cons.mp member
  · exact .refl
  · exact (collects.leads place seen).2.to_reflTransGen

/-- With nothing left in the queue, whatever leads to the target was seen. -/
theorem mem_of_reaches (collects : graph.Collects target seen []) (path : graph.Reaches place target) :
    place ∈ target :: seen := by
  induction path using ReflTransGen.head_induction_on with
  | refl => exact List.mem_cons_self
  | head edge _ ih => exact collects.finished _ ih List.not_mem_nil _ edge

variable [DecidableEq V]

/-- Taking a place from the queue adds its fresh predecessors. -/
theorem visit (collects : graph.Collects target seen (place :: queue)) :
    graph.Collects target (graph.fresh target seen place ++ seen) (queue ++ graph.fresh target seen place) where
  once := by
    refine List.nodup_append.mpr ⟨nodup_eraseDups _, collects.once, ?_⟩
    rintro previous new _ old rfl
    exact (mem_fresh.mp new).2.2 old
  leads previous member := by
    obtain new | old := List.mem_append.mp member
    · obtain ⟨edge, apart, -⟩ := mem_fresh.mp new
      have path := collects.reaches (collects.queued place List.mem_cons_self)
      exact ⟨apart, TransGen.head' edge path⟩
    · exact collects.leads previous old
  queued other member := by
    rw [List.mem_cons, List.mem_append]
    obtain waiting | new := List.mem_append.mp member
    · exact (List.mem_cons.mp (collects.queued other (List.mem_cons_of_mem place waiting))).imp_right .inr
    · exact .inr (.inl new)
  finished other member done previous edge := by
    rw [List.mem_append, not_or] at done
    rw [List.mem_cons, List.mem_append, or_iff_right done.2, ← List.mem_cons] at member
    rw [List.mem_cons, List.mem_append]
    -- Either the place was taken just now, or it had been finished before.
    obtain rfl | elsewhere := eq_or_ne other place
    · by_cases known : previous = target ∨ previous ∈ seen
      · exact known.imp_right .inr
      · rw [not_or] at known
        exact .inr (.inl (mem_fresh.mpr ⟨edge, known⟩))
    · have gone : other ∉ place :: queue := List.not_mem_cons_of_ne_of_not_mem elsewhere done.1
      exact (List.mem_cons.mp (collects.finished other member gone previous edge)).imp_right .inr

theorem run (collects : graph.Collects target seen queue) :
    graph.Collects target (graph.collect target seen queue) [] := by
  fun_induction graph.collect target seen queue with
  | case1 seen => exact collects
  | case2 seen place queue ih => exact ih collects.visit

end Collects

variable [DecidableEq V]

/-- The search finds the places other than the target from which one or more edges lead to it. -/
theorem mem_leadingTo_iff :
    place ∈ graph.leadingTo target ↔ place ≠ target ∧ TransGen graph.Leads place target := by
  have collects := (Collects.start graph target).run
  constructor
  · exact collects.leads place
  · rintro ⟨apart, path⟩
    exact (List.mem_cons.mp (collects.mem_of_reaches path.to_reflTransGen)).resolve_left apart

theorem nodup_leadingTo (graph : Graph V) (target : V) : (graph.leadingTo target).Nodup :=
  (Collects.start graph target).run.once

end PuzzleCalendar.Graph
