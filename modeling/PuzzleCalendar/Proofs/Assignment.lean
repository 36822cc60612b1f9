import Mathlib.Data.Fintype.Pigeonhole
import Mathlib.Dynamics.PeriodicPts.Lemmas
import Mathlib.Tactic.Push

/-! # Assignments

An assignment gives each of finitely many places an item of its own that fits. A place with a single
item that fits takes it from the other places without changing the assignments. If there is exactly one
assignment, then some place has a single item left: otherwise every place could move to another item,
and either one of these items is free or the moves go round in a circle, and both give a second
assignment.
-/

namespace PuzzleCalendar

variable {Place Item : Type}

/-- The choice gives each place an item that fits, and no two places the same. -/
structure Assigns (places : Finset Place) (fits : Place → Item → Prop) (choice : Place → Item) :
    Prop where
  fits : ∀ place ∈ places, fits place (choice place)
  distinct : Set.InjOn choice places

/-- The choice is the only assignment, as far as the places go. -/
structure AssignsOnly (places : Finset Place) (fits : Place → Item → Prop) (choice : Place → Item) :
    Prop where
  assigns : Assigns places fits choice
  only : ∀ other, Assigns places fits other → ∀ place ∈ places, other place = choice place

variable {places rest : Finset Place} {fits fewer : Place → Item → Prop} {choice other : Place → Item}

/-- What an item does elsewhere is no matter. -/
theorem assigns_congr_fits (same : ∀ place ∈ places, ∀ item, fits place item ↔ fewer place item) :
    Assigns places fits choice ↔ Assigns places fewer choice := by
  constructor
  · rintro ⟨fit, distinct⟩
    exact ⟨fun place member => (same place member _).mp (fit place member), distinct⟩
  · rintro ⟨fit, distinct⟩
    exact ⟨fun place member => (same place member _).mpr (fit place member), distinct⟩

theorem Assigns.congr (assigns : Assigns places fits choice)
    (same : ∀ place ∈ places, choice place = other place) : Assigns places fits other := by
  refine ⟨fun place member => same place member ▸ assigns.fits place member, ?_⟩
  exact assigns.distinct.congr fun place member => same place member

/-- The same assignments leave the same one as the only one. -/
theorem assignsOnly_congr_fits
    (same : ∀ choice, Assigns places fits choice ↔ Assigns places fewer choice) :
    AssignsOnly places fits choice ↔ AssignsOnly places fewer choice := by
  constructor
  · rintro ⟨assigns, only⟩
    exact ⟨(same _).mp assigns, fun other fitting => only other ((same other).mpr fitting)⟩
  · rintro ⟨assigns, only⟩
    exact ⟨(same _).mpr assigns, fun other fitting => only other ((same other).mp fitting)⟩

/-- Where results list the assignments, the only result lists the only assignment. -/
theorem only_iff_exists_assignsOnly {Result : Type} {right : Result → Prop}
    {listing : (Place → Item) → Result} {result : Result}
    (lists : ∀ result, right result ↔ ∃ choice, Assigns places fits choice ∧ result = listing choice)
    (alike : ∀ one two, listing one = listing two ↔ ∀ place ∈ places, one place = two place) :
    (right result ∧ ∀ other, right other → other = result) ↔
      ∃ choice, AssignsOnly places fits choice ∧ result = listing choice := by
  constructor
  · rintro ⟨holds, only⟩
    obtain ⟨choice, assigns, rfl⟩ := (lists result).mp holds
    refine ⟨choice, ⟨assigns, fun other fitting => ?_⟩, rfl⟩
    exact (alike other choice).mp (only _ ((lists _).mpr ⟨other, fitting, rfl⟩))
  · rintro ⟨choice, unique, rfl⟩
    refine ⟨(lists _).mpr ⟨choice, unique.assigns, rfl⟩, fun other holds => ?_⟩
    obtain ⟨another, fitting, rfl⟩ := (lists other).mp holds
    exact (alike another choice).mpr (unique.only another fitting)

/-- No places have one assignment, the empty one. -/
theorem assignsOnly_empty : AssignsOnly ∅ fits choice := by
  refine ⟨⟨by simp, by simp⟩, by simp⟩

/-- A place with a single item takes it, and the other places do without. -/
theorem assigns_erase_iff [DecidableEq Place] {place : Place} {item : Item} (member : place ∈ places)
    (single : ∀ other, fits place other ↔ other = item) :
    Assigns places fits choice ↔ choice place = item ∧ Assigns (places.erase place)
      (fun other another => fits other another ∧ another ≠ item) choice := by
  constructor
  · rintro ⟨fit, distinct⟩
    have taken := (single _).mp (fit place member)
    refine ⟨taken, fun other among => ?_, distinct.mono (by simp)⟩
    obtain ⟨different, there⟩ := Finset.mem_erase.mp among
    exact ⟨fit other there, fun same => different (distinct there member (same.trans taken.symm))⟩
  · rintro ⟨taken, fit, distinct⟩
    have apart (other : Place) (there : other ∈ places) (same : choice other = item) :
        other = place := by
      by_contra different
      exact (fit other (Finset.mem_erase.mpr ⟨different, there⟩)).2 same
    constructor
    · intro other there
      by_cases here : other = place
      · exact here ▸ (single _).mpr taken
      · exact (fit other (Finset.mem_erase.mpr ⟨here, there⟩)).1
    · intro one thereOne two thereTwo same
      by_cases hereOne : one = place <;> by_cases hereTwo : two = place
      · exact hereOne.trans hereTwo.symm
      · exact absurd (apart two thereTwo (same ▸ hereOne ▸ taken)) hereTwo
      · exact absurd (apart one thereOne (same ▸ hereTwo ▸ taken)) hereOne
      · exact distinct (Finset.mem_erase.mpr ⟨hereOne, thereOne⟩)
          (Finset.mem_erase.mpr ⟨hereTwo, thereTwo⟩) same

/-- The assignment is the only one exactly when it is the only one that the other places have left. -/
theorem assignsOnly_erase_iff [DecidableEq Place] {place : Place} {item : Item}
    (member : place ∈ places) (single : ∀ other, fits place other ↔ other = item) :
    AssignsOnly places fits choice ↔ choice place = item ∧ AssignsOnly (places.erase place)
      (fun other another => fits other another ∧ another ≠ item) choice := by
  constructor
  · rintro ⟨assigns, only⟩
    obtain ⟨taken, others⟩ := (assigns_erase_iff member single).mp assigns
    refine ⟨taken, others, fun other fitting another among => ?_⟩
    -- The other places' assignment together with the item of this place.
    have extended : Assigns places fits (Function.update other place item) := by
      refine (assigns_erase_iff member single).mpr ⟨Function.update_self .., ?_⟩
      exact fitting.congr fun there inside =>
        (Function.update_of_ne (Finset.ne_of_mem_erase inside) _ _).symm
    have agrees := only _ extended another (Finset.mem_of_mem_erase among)
    rwa [Function.update_of_ne (Finset.ne_of_mem_erase among)] at agrees
  · rintro ⟨taken, assigns, only⟩
    refine ⟨(assigns_erase_iff member single).mpr ⟨taken, assigns⟩, fun other fitting there inside => ?_⟩
    obtain ⟨same, others⟩ := (assigns_erase_iff member single).mp fitting
    by_cases here : there = place
    · rw [here, same, taken]
    · exact only other others there (Finset.mem_erase.mpr ⟨here, inside⟩)

/-- Moves within finitely many places go round in a circle somewhere. -/
theorem exists_mem_periodicPts {next : Place → Place} (within : Set.MapsTo next rest rest)
    (nonempty : rest.Nonempty) : ∃ place ∈ rest, place ∈ Function.periodicPts next := by
  obtain ⟨start, member⟩ := nonempty
  have stays (moves : ℕ) : next^[moves] start ∈ rest := within.iterate moves member
  obtain ⟨first, second, different, same⟩ := Finite.exists_ne_map_eq_of_infinite
    fun moves => (⟨next^[moves] start, stays moves⟩ : rest)
  have meet : next^[first] start = next^[second] start := congrArg Subtype.val same
  have circle {less more : ℕ} (early : less < more) (meet : next^[less] start = next^[more] start) :
      next^[less] start ∈ Function.periodicPts next := by
    refine Function.mk_mem_periodicPts (Nat.sub_pos_of_lt early) ?_
    calc
      next^[more - less] (next^[less] start) = next^[more - less + less] start :=
        (Function.iterate_add_apply next _ _ start).symm
      _ = next^[less] start := by rw [Nat.sub_add_cancel early.le, meet]
  rcases Nat.lt_or_gt_of_ne different with early | late
  · exact ⟨_, stays first, circle early meet⟩
  · exact ⟨_, stays second, circle late meet.symm⟩

/-- A place that moves to a free item gives another assignment. -/
theorem Assigns.update [DecidableEq Place] (assigns : Assigns places fits choice) {place : Place}
    {item : Item} (fit : fits place item) (free : ∀ taken ∈ places, choice taken ≠ item) :
    Assigns places fits (Function.update choice place item) := by
  constructor
  · intro one member
    by_cases here : one = place
    · simpa [here] using fit
    · simpa [here] using assigns.fits one member
  · intro one memberOne two memberTwo same
    by_cases hereOne : one = place <;> by_cases hereTwo : two = place
    · exact hereOne.trans hereTwo.symm
    · rw [hereOne, Function.update_self, Function.update_of_ne hereTwo] at same
      exact absurd same.symm (free two memberTwo)
    · rw [hereTwo, Function.update_self, Function.update_of_ne hereOne] at same
      exact absurd same (free one memberOne)
    · rw [Function.update_of_ne hereOne, Function.update_of_ne hereTwo] at same
      exact assigns.distinct memberOne memberTwo same

/-- Places that move in circles, each to the item of the next one, give another assignment. -/
theorem Assigns.rotate (assigns : Assigns places fits choice) (inside : rest ⊆ places)
    {next : Place → Place} (within : Set.MapsTo next rest rest)
    (fit : ∀ place ∈ rest, fits place (choice (next place))) (nonempty : rest.Nonempty)
    (moves : ∀ place ∈ rest, next place ≠ place) :
    ∃ other, Assigns places fits other ∧ ∃ place ∈ places, other place ≠ choice place := by
  classical
  let circles : Set Place := {place | place ∈ rest ∧ place ∈ Function.periodicPts next}
  have round {place : Place} (member : place ∈ circles) : next place ∈ circles :=
    ⟨within member.1, (Function.bijOn_periodicPts next).mapsTo member.2⟩
  have moved {one two : Place} (memberOne : one ∈ circles) (memberTwo : two ∈ places)
      (same : choice (next one) = choice two) : two ∈ circles :=
    assigns.distinct (inside (round memberOne).1) memberTwo same ▸ round memberOne
  refine ⟨fun place => if place ∈ circles then choice (next place) else choice place, ⟨?_, ?_⟩, ?_⟩
  · intro place member
    by_cases circling : place ∈ circles
    · simpa [circling] using fit place circling.1
    · simpa [circling] using assigns.fits place member
  · intro one memberOne two memberTwo same
    by_cases circlingOne : one ∈ circles <;> by_cases circlingTwo : two ∈ circles <;>
      simp only [circlingOne, circlingTwo, if_true, if_false] at same
    · have together := assigns.distinct (inside (round circlingOne).1)
        (inside (round circlingTwo).1) same
      exact (Function.bijOn_periodicPts next).injOn circlingOne.2 circlingTwo.2 together
    · exact absurd (moved circlingOne memberTwo same) circlingTwo
    · exact absurd (moved circlingTwo memberOne same.symm) circlingOne
    · exact assigns.distinct memberOne memberTwo same
  · obtain ⟨place, member, periodic⟩ := exists_mem_periodicPts within nonempty
    have circling : place ∈ circles := ⟨member, periodic⟩
    refine ⟨place, inside member, ?_⟩
    simp only [circling, if_true]
    exact fun same => moves place member (assigns.distinct (inside (round circling).1)
      (inside member) same)

/-- Among places whose items fit none of the others, the only assignment leaves some place no choice. -/
theorem AssignsOnly.exists_forced (unique : AssignsOnly places fits choice) (inside : rest ⊆ places)
    (nonempty : rest.Nonempty) (apart : ∀ place ∈ rest, ∀ item, fits place item →
      ∀ taken ∈ places, choice taken = item → taken ∈ rest) :
    ∃ place ∈ rest, ∀ item, fits place item → item = choice place := by
  classical
  have : Nonempty Place := ⟨nonempty.choose⟩
  have : Nonempty Item := ⟨choice nonempty.choose⟩
  by_contra free
  push Not at free
  choose! item fit another using free
  by_cases free : ∃ place ∈ rest, ∀ taken ∈ places, choice taken ≠ item place
  · obtain ⟨place, member, free⟩ := free
    have moved := unique.only _ (unique.assigns.update (fit place member) free) place (inside member)
    rw [Function.update_self] at moved
    exact another place member moved
  · push Not at free
    choose! next inNext taken using free
    have within : Set.MapsTo next rest rest := fun place member =>
      apart place member _ (fit place member) _ (inNext place member) (taken place member)
    obtain ⟨other, assigns, place, member, different⟩ := unique.assigns.rotate inside within
      (fun place member => by rw [taken place member]; exact fit place member) nonempty
      (fun place member still => another place member (by rw [← taken place member, still]))
    exact different (unique.only other assigns place member)

end PuzzleCalendar
