import PuzzleCalendar.Proofs.Baggage.Nesting
import PuzzleCalendar.Proofs.Graph.Rounds

/-! # Colors that hold themselves

The search for a color inside itself goes over the contents of colors, whichever color it starts from. It ends
soon, it finds only a color that the start leads to and that holds itself, and it finds one whenever there is one.
Colors that hold themselves elsewhere, and colors inside several others, do not mislead it.
-/

namespace PuzzleCalendar.Baggage

variable {rules : Rules}

/-- Let the rules be about different colors. From every color the search ends within two rounds for each content
and three further ones. A color that it finds is one that the start leads to, maybe the start, and holds itself.
It finds none exactly when the start leads to no color that holds itself. -/
theorem cycleFrom_exact (distinct : rules.Distinct) (start : Text) :
    (Graph.Search.start start).run rules.graph (2 * rules.graph.edges.length + 3) =
        .inl (rules.graph.cycleFrom start) ∧
      (∀ color, rules.graph.cycleFrom start = some color →
        rules.LeadsTo start color ∧ rules.HoldsItself color) ∧
      (rules.graph.cycleFrom start = none ↔
        ∀ color, rules.LeadsTo start color → ¬ rules.HoldsItself color) := by
  refine ⟨Graph.Search.run_start rules.graph start, ?_, distinct.cycleFrom_eq_none_iff⟩
  intro color found
  exact distinct.of_cycleFrom found

/-- Two colors inside each other, a color outside that leads to them, and one that two others hold. -/
def ringRoad : Rules :=
  [("dim tan".toList, [(1, "pale blue".toList), (4, "dark red".toList)]),
    ("dark red".toList, [(2, target), (3, "pale blue".toList)]),
    (target, [(1, "pale blue".toList), (1, "dark red".toList)])]

/-- The search from outside finds a color of the ring, and the search from a color within three others finds
none. -/
theorem cycleFrom_ringRoad : ringRoad.Distinct ∧
    (ringRoad.graph.cycleFrom "dim tan".toList = some "dark red".toList ∧
      ringRoad.LeadsTo "dim tan".toList "dark red".toList ∧ ringRoad.HoldsItself "dark red".toList) ∧
    ringRoad.graph.cycleFrom "pale blue".toList = none ∧ ¬ ringRoad.HoldsItself "pale blue".toList := by
  have distinct : ringRoad.Distinct := by
    rw [Rules.Distinct]
    decide
  obtain ⟨outside, found, -⟩ := cycleFrom_exact distinct "dim tan".toList
  obtain ⟨within, -, clear⟩ := cycleFrom_exact distinct "pale blue".toList
  have ring : ringRoad.graph.cycleFrom "dim tan".toList = some "dark red".toList := by
    apply Sum.inl.inj (outside.symm.trans _)
    decide +kernel
  have none : ringRoad.graph.cycleFrom "pale blue".toList = none := by
    apply Sum.inl.inj (within.symm.trans _)
    decide +kernel
  exact ⟨distinct, ⟨ring, found _ ring⟩, none, clear.mp none _ .refl⟩

end PuzzleCalendar.Baggage
