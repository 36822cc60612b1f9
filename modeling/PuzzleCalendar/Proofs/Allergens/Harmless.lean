import PuzzleCalendar.Proofs.Allergens.Resolution

/-! # Harmless ingredients

An ingredient is harmless when no way to explain the foods gives it to an allergen. If there is a way at all,
any suspect of an allergen can take that allergen: either another allergen has the suspect already, or the
allergen moves to it and the others stay. So the ingredients that no allergen suspects are the harmless
ones, and the count of their occurrences is right.
-/

namespace PuzzleCalendar.Allergens

/-- No way to explain the foods gives the ingredient to an allergen. -/
def Harmless (foods : List Food) (ingredient : Text) : Prop :=
  ∀ found, Explains foods found → ingredient ∉ found.map Prod.snd

variable {foods : List Food} {allergen ingredient : Text} {choice : Text → Text}

theorem mem_flatMap_candidates : ingredient ∈ (candidates foods).flatMap Prod.snd ↔
    ∃ allergen ∈ allergens foods, Suspected foods allergen ingredient := by
  rw [List.mem_flatMap]
  constructor
  · rintro ⟨entry, member, inside⟩
    have suspects : Suspects (candidates foods) entry.1 ingredient := ⟨entry.2, member, inside⟩
    exact ⟨entry.1, suspects.mem_map_fst, (suspects_candidates suspects.mem_map_fst).mp suspects⟩
  · rintro ⟨allergen, listed, suspected⟩
    obtain ⟨suspects, member, inside⟩ := (suspects_candidates listed).mpr suspected
    exact ⟨_, member, inside⟩

theorem mem_map_snd_listed :
    ingredient ∈ (listed foods choice).map Prod.snd ↔ ∃ allergen ∈ allergens foods, choice allergen = ingredient := by
  simp [listed]

/-- If the foods are explained at all, they are explained with any suspect of an allergen in use. -/
theorem exists_explains_of_suspected (explained : ∃ found, Explains foods found)
    (there : allergen ∈ allergens foods) (suspected : Suspected foods allergen ingredient) :
    ∃ found, Explains foods found ∧ ingredient ∈ found.map Prod.snd := by
  obtain ⟨found, explains⟩ := explained
  obtain ⟨choice, assigns, rfl⟩ := explains_iff.mp explains
  by_cases used : ∃ other ∈ allergens foods, choice other = ingredient
  · exact ⟨_, explains, mem_map_snd_listed.mpr used⟩
  · have free : ∀ taken ∈ names (candidates foods), choice taken ≠ ingredient := by
      intro taken member same
      rw [names_candidates, List.mem_toFinset] at member
      exact used ⟨taken, member, same⟩
    have moved := assigns.update ((suspects_candidates there).mpr suspected) free
    refine ⟨_, explains_iff.mpr ⟨_, moved, rfl⟩, ?_⟩
    exact mem_map_snd_listed.mpr ⟨allergen, there, Function.update_self ..⟩

/-- In foods that are explained, the harmless ingredients are those that no allergen suspects. -/
theorem harmless_iff (explained : ∃ found, Explains foods found) :
    Harmless foods ingredient ↔ ingredient ∉ (candidates foods).flatMap Prod.snd := by
  rw [mem_flatMap_candidates]
  constructor
  · rintro harmless ⟨allergen, there, suspected⟩
    obtain ⟨found, explains, member⟩ := exists_explains_of_suspected explained there suspected
    exact harmless found explains member
  · intro trusted found explains member
    obtain ⟨choice, assigns, rfl⟩ := explains_iff.mp explains
    obtain ⟨allergen, there, rfl⟩ := mem_map_snd_listed.mp member
    refine trusted ⟨allergen, there, (suspects_candidates there).mp (assigns.fits allergen ?_)⟩
    rwa [names_candidates, List.mem_toFinset]

/-- In foods that are explained in some way, the count is that of the occurrences of harmless ingredients. -/
theorem countSafe_counts_harmless (foods : List Food) (explained : ∃ found, Explains foods found) :
    ∃ safe : Text → Bool, (∀ ingredient, safe ingredient = true ↔ Harmless foods ingredient) ∧
      countSafe foods = .ok (toString ((foods.flatMap Food.ingredients).countP safe)) := by
  refine ⟨fun ingredient => !((candidates foods).flatMap Prod.snd).contains ingredient, ?_, rfl⟩
  intro ingredient
  rw [harmless_iff explained]
  simp

/-- Two foods with the ingredients a to d, of which a and b share two allergens in an unknown manner, and
d comes twice. -/
def sharedSuspects : List Food :=
  [⟨[['a'], ['b'], ['c']], [['s'], ['f']]⟩, ⟨[['a'], ['b'], ['d'], ['d']], [['f'], ['s']]⟩]

theorem countSafe_sharedSuspects : (∃ found, Explains sharedSuspects found) ∧
    ∃ safe : Text → Bool, (∀ ingredient, safe ingredient = true ↔ Harmless sharedSuspects ingredient) ∧
      countSafe sharedSuspects =
        .ok (toString ((sharedSuspects.flatMap Food.ingredients).countP safe)) := by
  have explains : Explains sharedSuspects [(['f'], ['a']), (['s'], ['b'])] := by
    refine ⟨by decide, fun allergen => ?_, ?_, by decide⟩
    · simp [sharedSuspects, or_comm]
    · simp [sharedSuspects, Suspected]
  exact ⟨⟨_, explains⟩, countSafe_counts_harmless sharedSuspects ⟨_, explains⟩⟩

end PuzzleCalendar.Allergens
