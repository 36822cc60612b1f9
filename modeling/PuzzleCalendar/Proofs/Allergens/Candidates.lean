import Mathlib.Data.Finset.Dedup
import Mathlib.Data.List.Induction
import Mathlib.Data.List.Nodup
import PuzzleCalendar.Marks
import PuzzleCalendar.Puzzles.Allergens

/-! # Suspects of the allergens

The suspects of an allergen are narrowed from one food that lists it to the next. After all foods they are
the ingredients that these foods have in common, however often a food lists the allergen. Each allergen has
one entry, and the entries stand in the order of a dictionary.
-/

namespace PuzzleCalendar.Allergens

open Text

/-- Every food that lists the allergen has the ingredient. -/
def Suspected (foods : List Food) (allergen ingredient : Text) : Prop :=
  ∀ food ∈ foods, allergen ∈ food.allergens → ingredient ∈ food.ingredients

/-- An entry suspects the ingredient of the allergen. -/
def Suspects (unresolved : List (Text × List Text)) (allergen ingredient : Text) : Prop :=
  ∃ suspects, (allergen, suspects) ∈ unresolved ∧ ingredient ∈ suspects

/-- The allergens of some entries. -/
def names (unresolved : List (Text × List Text)) : Finset Text :=
  (unresolved.map Prod.fst).toFinset

/-- Each allergen has one entry and each entry names a suspect once. -/
structure Proper (unresolved : List (Text × List Text)) : Prop where
  once : (unresolved.map Prod.fst).Nodup
  plain : ∀ entry ∈ unresolved, entry.2.Nodup

/-- The allergens of the foods in the order of a dictionary. -/
def allergens (foods : List Food) : List Text :=
  (candidates foods).map Prod.fst

/-- The entries stand in the order of a dictionary, and each allergen has one. -/
def Ordered (known : List (Text × List Text)) : Prop :=
  (known.map Prod.fst).Pairwise fun first second => precedes first second = true ∧ first ≠ second

/-- The listings of allergens by foods, each with the ingredients of the food. -/
def listings (foods : List Food) : List (Text × List Text) :=
  foods.flatMap fun food => food.allergens.map fun allergen => (allergen, food.ingredients.eraseDups)

/-- The entries hold what the listings of each allergen have in common. -/
structure Intersects (listings known : List (Text × List Text)) : Prop where
  ordered : Ordered known
  plain : ∀ entry ∈ known, entry.2.Nodup
  mem_iff (name : Text) : name ∈ known.map Prod.fst ↔ name ∈ listings.map Prod.fst
  suspects_iff (name ingredient : Text) : name ∈ listings.map Prod.fst →
    (Suspects known name ingredient ↔ ∀ listing ∈ listings, listing.1 = name → ingredient ∈ listing.2)

section Narrowing

variable {known rest : List (Text × List Text)} {entry : Text × List Text} {ingredients : List Text}
  {allergen name ingredient : Text}

theorem suspects_cons : Suspects (entry :: rest) name ingredient ↔
    name = entry.1 ∧ ingredient ∈ entry.2 ∨ Suspects rest name ingredient := by
  obtain ⟨other, suspects⟩ := entry
  simp only [Suspects, List.mem_cons, Prod.mk.injEq, or_and_right, exists_or, and_assoc]
  simp

theorem Suspects.mem_map_fst (suspects : Suspects known name ingredient) : name ∈ known.map Prod.fst := by
  obtain ⟨_, member, -⟩ := suspects
  exact List.mem_map_of_mem (f := Prod.fst) member

theorem mem_map_fst_narrow :
    name ∈ (narrow ingredients allergen known).map Prod.fst ↔ name = allergen ∨ name ∈ known.map Prod.fst := by
  fun_induction narrow ingredients allergen known with
  | case1 => simp
  | case2 => simp
  | case3 => simp
  | case4 other suspects rest _ _ ih => simp only [List.map_cons, List.mem_cons, ih, or_left_comm]

theorem Ordered.narrow (ordered : Ordered known) : Ordered (narrow ingredients allergen known) := by
  unfold Ordered at ordered ⊢
  fun_induction Allergens.narrow ingredients allergen known with
  | case1 => exact List.pairwise_singleton _ _
  | case2 => exact ordered
  | case3 name suspects rest different above =>
    refine List.pairwise_cons.mpr ⟨fun other member => ?_, ordered⟩
    obtain rfl | later := List.mem_cons.mp member
    · exact ⟨above, Ne.symm different⟩
    · obtain ⟨beyond, apart⟩ := (List.pairwise_cons.mp ordered).1 other later
      refine ⟨precedes_trans above beyond, ?_⟩
      rintro rfl
      exact apart (precedes_antisymm beyond above)
  | case4 name suspects rest different below ih =>
    obtain ⟨before, ordered⟩ := List.pairwise_cons.mp ordered
    refine List.pairwise_cons.mpr ⟨fun other member => ?_, ih ordered⟩
    obtain rfl | later := mem_map_fst_narrow.mp member
    · have total := precedes_total other name
      rw [Bool.or_eq_true] at total
      exact ⟨total.resolve_left below, different⟩
    · exact before other later

/-- The suspects of the other allergens stay. -/
theorem suspects_narrow_of_ne (different : name ≠ allergen) :
    Suspects (narrow ingredients allergen known) name ingredient ↔ Suspects known name ingredient := by
  fun_induction narrow ingredients allergen known with
  | case1 => simp [suspects_cons, different]
  | case2 => simp [suspects_cons, different]
  | case3 => simp [suspects_cons, different]
  | case4 other suspects rest _ _ ih => rw [suspects_cons, suspects_cons, ih]

/-- An allergen keeps the suspects that are among the ingredients; before its first listing, all of these are. -/
theorem suspects_narrow (ordered : Ordered known) :
    Suspects (narrow ingredients allergen known) allergen ingredient ↔
      ingredient ∈ ingredients ∧ (allergen ∈ known.map Prod.fst → Suspects known allergen ingredient) := by
  unfold Ordered at ordered
  fun_induction narrow ingredients allergen known with
  | case1 => simp [Suspects]
  | case2 suspects rest =>
    have once : ¬ Suspects rest allergen ingredient := fun again =>
      ((List.pairwise_cons.mp ordered).1 allergen again.mem_map_fst).2 rfl
    simp [suspects_cons, once, and_comm]
  | case3 name suspects rest different above =>
    have fresh : allergen ∉ ((name, suspects) :: rest).map Prod.fst := by
      intro member
      obtain same | later := List.mem_cons.mp member
      · exact different same.symm
      · obtain ⟨beyond, apart⟩ := (List.pairwise_cons.mp ordered).1 allergen later
        exact apart (precedes_antisymm beyond above)
    have none : ¬ Suspects ((name, suspects) :: rest) allergen ingredient := fun suspects =>
      fresh suspects.mem_map_fst
    rw [suspects_cons]
    simp only [none, fresh, true_and, or_false, false_implies, and_true]
  | case4 name suspects rest different _ ih =>
    have later := ih (List.pairwise_cons.mp ordered).2
    have other := Ne.symm different
    rw [suspects_cons, later]
    simp only [suspects_cons, other, false_and, false_or, List.map_cons, List.mem_cons]

/-- No entry names a suspect twice. -/
theorem nodup_narrow (once : ingredients.Nodup) (plain : ∀ entry ∈ known, entry.2.Nodup) :
    ∀ entry ∈ narrow ingredients allergen known, entry.2.Nodup := by
  fun_induction narrow ingredients allergen known with
  | case1 => exact List.forall_mem_singleton.mpr once
  | case2 suspects rest =>
    obtain ⟨first, rest⟩ := List.forall_mem_cons.mp plain
    exact List.forall_mem_cons.mpr ⟨first.filter _, rest⟩
  | case3 => exact List.forall_mem_cons.mpr ⟨once, plain⟩
  | case4 name suspects rest _ _ ih =>
    obtain ⟨first, rest⟩ := List.forall_mem_cons.mp plain
    exact List.forall_mem_cons.mpr ⟨first, ih rest⟩

end Narrowing

section Listings

variable {listed known : List (Text × List Text)} {foods : List Food} {allergen ingredient : Text}

theorem candidates_eq_foldl (foods : List Food) : candidates foods =
    (listings foods).foldl (fun known listing => narrow listing.2 listing.1 known) [] := by
  simp only [listings, List.foldl_flatMap, List.foldl_map]
  rfl

theorem intersects_nil : Intersects [] [] :=
  ⟨List.Pairwise.nil, List.forall_mem_nil _, fun _ => Iff.rfl, fun _ _ => nofun⟩

/-- One more listing of an allergen leaves the suspects that are among the ingredients of the food. -/
theorem Intersects.concat (intersects : Intersects listed known) {listing : Text × List Text}
    (once : listing.2.Nodup) : Intersects (listed ++ [listing]) (narrow listing.2 listing.1 known) := by
  obtain ⟨allergen, ingredients⟩ := listing
  refine ⟨intersects.ordered.narrow, nodup_narrow once intersects.plain, fun name => ?_,
    fun name ingredient among => ?_⟩
  · rw [mem_map_fst_narrow, intersects.mem_iff, List.map_append, List.mem_append, List.map_singleton,
      List.mem_singleton, or_comm]
  · rw [List.forall_mem_append, List.forall_mem_singleton]
    by_cases same : name = allergen
    · subst same
      have last : ((name, ingredients).1 = name → ingredient ∈ ingredients) ↔ ingredient ∈ ingredients :=
        forall_prop_of_true rfl
      rw [suspects_narrow intersects.ordered, and_comm, intersects.mem_iff, last]
      apply and_congr_left'
      by_cases before : name ∈ listed.map Prod.fst
      · rw [forall_prop_of_true before, intersects.suspects_iff name ingredient before]
      · refine iff_of_true (fun again => absurd again before) fun listing member named => ?_
        exact absurd (List.mem_map.mpr ⟨listing, member, named⟩) before
    · have before : name ∈ listed.map Prod.fst := by
        rw [List.map_append, List.mem_append, List.map_singleton, List.mem_singleton] at among
        exact among.resolve_right same
      rw [suspects_narrow_of_ne same, intersects.suspects_iff name ingredient before]
      exact (and_iff_left fun equal => absurd equal.symm same).symm

/-- The candidates hold what the listings of each allergen have in common. -/
theorem intersects_candidates (foods : List Food) : Intersects (listings foods) (candidates foods) := by
  rw [candidates_eq_foldl]
  have once : ∀ listing ∈ listings foods, listing.2.Nodup := by
    intro listing member
    obtain ⟨food, -, listed⟩ := List.mem_flatMap.mp member
    obtain ⟨allergen, -, rfl⟩ := List.mem_map.mp listed
    exact nodup_eraseDups _
  generalize listings foods = listed at once
  induction listed using List.reverseRecOn with
  | nil => exact intersects_nil
  | append_singleton listed listing ih =>
    rw [List.forall_mem_append, List.forall_mem_singleton] at once
    rw [List.foldl_concat]
    exact (ih once.1).concat once.2

theorem mem_allergens : allergen ∈ allergens foods ↔ ∃ food ∈ foods, allergen ∈ food.allergens := by
  rw [allergens, (intersects_candidates foods).mem_iff]
  simp [listings]

theorem pairwise_allergens (foods : List Food) : (allergens foods).Pairwise
    fun first second => precedes first second = true ∧ first ≠ second :=
  (intersects_candidates foods).ordered

theorem nodup_allergens (foods : List Food) : (allergens foods).Nodup :=
  (pairwise_allergens foods).imp And.right

theorem names_candidates (foods : List Food) : names (candidates foods) = (allergens foods).toFinset := rfl

theorem proper_candidates (foods : List Food) : Proper (candidates foods) :=
  ⟨nodup_allergens foods, (intersects_candidates foods).plain⟩

/-- The suspects of an allergen that some food lists are the ingredients that every food listing it has. -/
theorem suspects_candidates (listed : allergen ∈ allergens foods) :
    Suspects (candidates foods) allergen ingredient ↔ Suspected foods allergen ingredient := by
  have intersects := intersects_candidates foods
  rw [intersects.suspects_iff allergen ingredient ((intersects.mem_iff allergen).mp listed)]
  constructor
  · intro common food member lists
    have listing : (allergen, food.ingredients.eraseDups) ∈ listings foods :=
      List.mem_flatMap.mpr ⟨food, member, List.mem_map_of_mem lists⟩
    exact List.mem_eraseDups.mp (common _ listing rfl)
  · rintro suspected _ member rfl
    obtain ⟨food, there, listing⟩ := List.mem_flatMap.mp member
    obtain ⟨_, lists, rfl⟩ := List.mem_map.mp listing
    exact List.mem_eraseDups.mpr (suspected food there lists)

end Listings

end PuzzleCalendar.Allergens
