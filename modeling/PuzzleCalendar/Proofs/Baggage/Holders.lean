import Mathlib.Data.Set.Card
import PuzzleCalendar.Proofs.Baggage.Nesting
import PuzzleCalendar.Proofs.Graph.Sources

/-! # The colors that hold a target at some depth

The rules of a text are about different colors, so in any order they say the same about each color. The search
goes from the target to the colors that hold it directly, and on from those. It comes to every color that holds
the target at some depth, wherever colors hold themselves, and the order of the rules only changes the order in
which the colors are found.
-/

namespace PuzzleCalendar.Baggage

open Relation

/-- A bag of a color holds bags of another one at some depth. -/
def Rules.HoldsDeep (rules : Rules) (outer inner : Text) : Prop := TransGen rules.Holds outer inner

variable {rules listed : Rules}

theorem Rules.Distinct.perm (distinct : rules.Distinct) (order : listed.Perm rules) : listed.Distinct :=
  (order.map Prod.fst).nodup_iff.mpr distinct

/-- The order of the edges does not matter to where they lead. -/
theorem graph_leads_perm (order : listed.Perm rules) : listed.graph.Leads = rules.graph.Leads := by
  funext outer inner
  rw [eq_iff_iff]
  exact (order.flatMap_right _).mem_iff

/-- In any order of the rules, the search finds the colors that hold the target at some depth, apart from the
target. -/
theorem mem_holders_iff (distinct : rules.Distinct) (order : listed.Perm rules) {color target : Text} :
    color ∈ listed.holders target ↔ color ≠ target ∧ rules.HoldsDeep color target := by
  rw [Rules.holders, Graph.mem_leadingTo_iff, graph_leads_perm order, distinct.leads_eq]
  rfl

/-- Let the rules of a text stand in any order. For every target, the search ends and finds exactly the colors
apart from the target that hold it at some depth, each of them once. The first part of the puzzle answers with
their number. -/
theorem holders_of_parse {text : Text} (parsed : parse text = .ok rules) (order : listed.Perm rules) :
    (∀ sought color, color ∈ listed.holders sought ↔ color ≠ sought ∧ rules.HoldsDeep color sought) ∧
    (∀ sought, (listed.holders sought).Nodup) ∧
    countHolders listed =
      .ok (toString {color | color ≠ target ∧ rules.HoldsDeep color target}.ncard) := by
  have distinct := distinct_of_parse parsed
  have once (sought : Text) : (listed.holders sought).Nodup := listed.graph.nodup_leadingTo sought
  refine ⟨fun _ _ => mem_holders_iff distinct order, once, ?_⟩
  have found : {color | color ≠ target ∧ rules.HoldsDeep color target} = (listed.holders target).toFinset := by
    ext color
    rw [Set.mem_ofPred_eq, ← mem_holders_iff distinct order, Finset.mem_coe, List.mem_toFinset]
  rw [countHolders, found, Set.ncard_coe_finset, List.toFinset_card_of_nodup (once target)]

/-- The target inside itself, a color twice in one rule, and a color without a rule. -/
def ring : Text :=
  ("shiny gold bags contain 1 dark red bag.\n" ++
    "dark red bags contain 2 shiny gold bags, 1 pale blue bag, 3 shiny gold bags.\n" ++
    "dim tan bags contain 4 dark red bags.\n").toList

/-- The rules of that text in another order. -/
def turnedRing : Rules :=
  [("dim tan".toList, [(4, "dark red".toList)]), (target, [(1, "dark red".toList)]),
    ("dark red".toList, [(2, target), (1, "pale blue".toList), (3, target)])]

theorem holders_of_parse_ring : ∃ rules, parse ring = .ok rules ∧ turnedRing.Perm rules ∧
    ∀ color, color ∈ turnedRing.holders target ↔ color ≠ target ∧ rules.HoldsDeep color target := by
  have parsed : parse ring = .ok [(target, [(1, "dark red".toList)]),
      ("dark red".toList, [(2, target), (1, "pale blue".toList), (3, target)]),
      ("dim tan".toList, [(4, "dark red".toList)])] := by decide +kernel
  have order := List.perm_append_singleton ("dim tan".toList, [(4, "dark red".toList)])
    [(target, [(1, "dark red".toList)]), ("dark red".toList, [(2, target), (1, "pale blue".toList), (3, target)])]
  exact ⟨_, parsed, order.symm, (holders_of_parse parsed order.symm).1 target⟩

end PuzzleCalendar.Baggage
