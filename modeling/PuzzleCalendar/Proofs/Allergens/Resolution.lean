import PuzzleCalendar.Proofs.Allergens.Candidates
import PuzzleCalendar.Proofs.Assignment

/-! # Resolution of allergens

Allergens are resolved exactly when there is one way to explain the foods: one ingredient for each
allergen, all different, that every food listing the allergen has. Resolving an allergen with a single
suspect keeps the ways to explain the rest, whichever such allergen comes first, and as long as there is
exactly one way, some allergen has a single suspect left.
-/

namespace PuzzleCalendar.Allergens

open Text

/-- Each allergen of the foods, in the order of a dictionary, with an ingredient of its own that every
food listing the allergen has. -/
structure Explains (foods : List Food) (found : List (Text × Text)) : Prop where
  ordered : found.Pairwise fun first second => precedes first.1 second.1 = true ∧ first.1 ≠ second.1
  listed : ∀ allergen, allergen ∈ found.map Prod.fst ↔ ∃ food ∈ foods, allergen ∈ food.allergens
  suspected : ∀ entry ∈ found, Suspected foods entry.1 entry.2
  distinct : (found.map Prod.snd).Nodup

/-- The foods are explained in this way and no other. -/
def ExplainsOnly (foods : List Food) (found : List (Text × Text)) : Prop :=
  Explains foods found ∧ ∀ other, Explains foods other → other = found

/-- Allergens are resolved one after the other, each with the only suspect that is left, until none of
those left has a single suspect. Whichever allergen with a single suspect may come first. -/
inductive Resolves : List (Text × List Text) → List (Text × Text) → List (Text × List Text) → Prop
  | stop {unresolved : List (Text × List Text)} (stuck : ∀ entry ∈ unresolved, entry.2.length ≠ 1) :
      Resolves unresolved [] unresolved
  | pick {unresolved left : List (Text × List Text)} {found : List (Text × Text)}
      {allergen ingredient : Text} (single : (allergen, [ingredient]) ∈ unresolved)
      (rest : Resolves (withhold allergen ingredient unresolved) found left) :
      Resolves unresolved ((allergen, ingredient) :: found) left

/-- The allergens in the order of a dictionary. -/
def inOrder (found : List (Text × Text)) : List (Text × Text) :=
  found.mergeSort fun first second => precedes first.1 second.1

variable {foods : List Food} {unresolved left : List (Text × List Text)}
  {found : List (Text × Text)} {allergen ingredient : Text} {choice : Text → Text}

section Picking

theorem mem_withhold {entry : Text × List Text} : entry ∈ withhold allergen ingredient unresolved ↔
    ∃ suspects, (entry.1, suspects) ∈ unresolved ∧ entry.1 ≠ allergen ∧
      suspects.filter (· != ingredient) = entry.2 := by
  obtain ⟨name, suspects⟩ := entry
  simp only [withhold, List.mem_map, List.mem_filter, bne_iff_ne, Prod.mk.injEq, Prod.exists]
  constructor
  · rintro ⟨_, _, ⟨member, different⟩, rfl, rfl⟩
    exact ⟨_, member, different, rfl⟩
  · rintro ⟨before, member, different, rfl⟩
    exact ⟨name, before, ⟨member, different⟩, rfl, rfl⟩

theorem map_fst_withhold (unresolved : List (Text × List Text)) (allergen ingredient : Text) :
    (withhold allergen ingredient unresolved).map Prod.fst =
      (unresolved.map Prod.fst).filter (· != allergen) := by
  simp [withhold, List.filter_map, Function.comp_def]

theorem names_withhold (unresolved : List (Text × List Text)) (allergen ingredient : Text) :
    names (withhold allergen ingredient unresolved) = (names unresolved).erase allergen := by
  ext other
  simp only [names, map_fst_withhold, List.mem_toFinset, List.mem_filter, bne_iff_ne,
    Finset.mem_erase, and_comm]

theorem suspects_withhold {other another : Text} (different : other ≠ allergen) :
    Suspects (withhold allergen ingredient unresolved) other another ↔
      Suspects unresolved other another ∧ another ≠ ingredient := by
  simp only [Suspects, mem_withhold]
  constructor
  · rintro ⟨_, ⟨before, member, _, rfl⟩, inside⟩
    obtain ⟨inside, apart⟩ := List.mem_filter.mp inside
    exact ⟨⟨before, member, inside⟩, by simpa using apart⟩
  · rintro ⟨⟨before, member, inside⟩, apart⟩
    exact ⟨_, ⟨before, member, different, rfl⟩, List.mem_filter.mpr ⟨inside, by simpa using apart⟩⟩

theorem Proper.withhold (proper : Proper unresolved) (allergen ingredient : Text) :
    Proper (withhold allergen ingredient unresolved) := by
  constructor
  · rw [map_fst_withhold]
    exact proper.once.filter _
  · intro entry member
    obtain ⟨suspects, before, _, same⟩ := mem_withhold.mp member
    exact same ▸ (proper.plain _ before).filter _

/-- In proper entries the entry of an allergen says all about its suspects. -/
theorem Proper.suspects_iff (proper : Proper unresolved) {suspects : List Text}
    (member : (allergen, suspects) ∈ unresolved) :
    Suspects unresolved allergen ingredient ↔ ingredient ∈ suspects := by
  constructor
  · rintro ⟨others, there, inside⟩
    have same := List.inj_on_of_nodup_map proper.once there member rfl
    exact (Prod.mk.inj same).2 ▸ inside
  · exact fun inside => ⟨suspects, member, inside⟩

theorem mem_names : allergen ∈ names unresolved ↔ ∃ suspects, (allergen, suspects) ∈ unresolved := by
  simp [names]

/-- Resolving an allergen keeps what there is to know about the only assignment. -/
theorem Proper.assignsOnly_pick_iff (proper : Proper unresolved)
    (single : (allergen, [ingredient]) ∈ unresolved) :
    AssignsOnly (names unresolved) (Suspects unresolved) choice ↔ choice allergen = ingredient ∧
      AssignsOnly (names (Allergens.withhold allergen ingredient unresolved))
        (Suspects (Allergens.withhold allergen ingredient unresolved)) choice := by
  have member := mem_names.mpr ⟨_, single⟩
  have only (other : Text) : Suspects unresolved allergen other ↔ other = ingredient := by
    rw [proper.suspects_iff single, List.mem_singleton]
  have narrowed (choice : Text → Text) :
      Assigns ((names unresolved).erase allergen)
          (Suspects (Allergens.withhold allergen ingredient unresolved)) choice ↔
        Assigns ((names unresolved).erase allergen)
          (fun other another => Suspects unresolved other another ∧ another ≠ ingredient) choice :=
    assigns_congr_fits fun other among another => suspects_withhold (Finset.ne_of_mem_erase among)
  rw [assignsOnly_erase_iff member only, names_withhold, assignsOnly_congr_fits narrowed]

end Picking

section Orders

/-- Taking the first allergen with a single suspect each time is one of the orders. -/
theorem exists_resolves (unresolved : List (Text × List Text)) : ∃ found left,
    Resolves unresolved found left ∧ resolve unresolved =
      if left = [] then .ok found else .error (left.map Prod.fst) := by
  fun_induction resolve unresolved with
  | case1 unresolved allergen ingredient single _ ih =>
    obtain ⟨found, left, resolves, outcome⟩ := ih
    refine ⟨_, left, .pick (mem_of_single? single) resolves, ?_⟩
    rw [outcome]
    split <;> rfl
  | case2 unresolved none empty =>
    obtain rfl := List.isEmpty_iff.mp empty
    exact ⟨[], [], .stop (by simp), rfl⟩
  | case3 unresolved none filled =>
    refine ⟨[], unresolved, .stop fun entry member one => ?_, ?_⟩
    · obtain ⟨ingredient, same⟩ := List.length_eq_one_iff.mp one
      have skipped := List.findSome?_eq_none_iff.mp none entry member
      simp [same] at skipped
    · rw [if_neg (by simpa using filled)]

theorem Resolves.perm (resolves : Resolves unresolved found left) (proper : Proper unresolved) :
    (found.map Prod.fst ++ left.map Prod.fst).Perm (unresolved.map Prod.fst) := by
  induction resolves with
  | stop => exact List.Perm.refl _
  | @pick unresolved left found allergen ingredient single _ ih =>
    have member : allergen ∈ unresolved.map Prod.fst := List.mem_map.mpr ⟨_, single, rfl⟩
    have others := ih (proper.withhold allergen ingredient)
    rw [map_fst_withhold, ← proper.once.erase_eq_filter] at others
    exact (others.cons allergen).trans (List.perm_cons_erase member).symm

/-- An assignment is the only one exactly when it agrees with what is found and is the only one of what
is left. -/
theorem Resolves.assignsOnly_iff (resolves : Resolves unresolved found left)
    (proper : Proper unresolved) : AssignsOnly (names unresolved) (Suspects unresolved) choice ↔
      (∀ entry ∈ found, choice entry.1 = entry.2) ∧
        AssignsOnly (names left) (Suspects left) choice := by
  induction resolves with
  | stop => simp
  | pick single _ ih =>
    rw [proper.assignsOnly_pick_iff single, ih (proper.withhold _ _), List.forall_mem_cons, and_assoc]

/-- Some choice agrees with all pairs of a list that has each first member once. -/
theorem exists_choice (once : (found.map Prod.fst).Nodup) :
    ∃ choice : Text → Text, ∀ entry ∈ found, choice entry.1 = entry.2 := by
  induction found with
  | nil => exact ⟨id, by simp⟩
  | cons first rest ih =>
    rw [List.map_cons, List.nodup_cons] at once
    obtain ⟨choice, agrees⟩ := ih once.2
    refine ⟨Function.update choice first.1 first.2, ?_⟩
    rw [List.forall_mem_cons]
    refine ⟨Function.update_self .., fun entry member => ?_⟩
    have different : entry.1 ≠ first.1 :=
      fun same => once.1 (same ▸ List.mem_map_of_mem (f := Prod.fst) member)
    rw [Function.update_of_ne different]
    exact agrees entry member

/-- Where nothing is left, what is found is the only assignment. -/
theorem Resolves.exists_assignsOnly (resolves : Resolves unresolved found [])
    (proper : Proper unresolved) :
    ∃ choice, AssignsOnly (names unresolved) (Suspects unresolved) choice := by
  have keys := resolves.perm proper
  rw [List.map_nil, List.append_nil] at keys
  obtain ⟨choice, agrees⟩ := exists_choice (keys.nodup_iff.mpr proper.once)
  exact ⟨choice, (resolves.assignsOnly_iff proper).mpr ⟨agrees, assignsOnly_empty⟩⟩

theorem Resolves.proper (resolves : Resolves unresolved found left) (proper : Proper unresolved) :
    Proper left := by
  induction resolves with
  | stop => exact proper
  | pick _ _ ih => exact ih (proper.withhold _ _)

theorem Resolves.stuck (resolves : Resolves unresolved found left) :
    ∀ entry ∈ left, entry.2.length ≠ 1 := by
  induction resolves with
  | stop stuck => exact stuck
  | pick _ _ ih => exact ih

/-- As long as there is exactly one assignment, some allergen has a single suspect. -/
theorem eq_nil_of_stuck (proper : Proper left) (stuck : ∀ entry ∈ left, entry.2.length ≠ 1)
    (unique : AssignsOnly (names left) (Suspects left) choice) : left = [] := by
  by_contra filled
  obtain ⟨entry, member⟩ := List.exists_mem_of_ne_nil left filled
  have nonempty : (names left).Nonempty := ⟨entry.1, mem_names.mpr ⟨entry.2, member⟩⟩
  obtain ⟨allergen, among, forced⟩ := unique.exists_forced (Finset.Subset.refl _) nonempty
    fun _ _ _ _ taken inside _ => inside
  obtain ⟨suspects, there⟩ := mem_names.mp among
  have only (other : Text) : other ∈ suspects ↔ other = choice allergen := by
    refine ⟨fun inside => forced other ((proper.suspects_iff there).mpr inside), ?_⟩
    rintro rfl
    exact (proper.suspects_iff there).mp (unique.assigns.fits allergen among)
  have single : suspects.Perm [choice allergen] := by
    refine (List.perm_ext_iff_of_nodup (proper.plain _ there) (List.nodup_singleton _)).mpr ?_
    simpa using only
  exact stuck _ there single.length_eq

/-- Whatever the order of picking, nothing is left exactly when there is one assignment. -/
theorem Resolves.left_eq_nil_iff (resolves : Resolves unresolved found left)
    (proper : Proper unresolved) :
    left = [] ↔ ∃ choice, AssignsOnly (names unresolved) (Suspects unresolved) choice := by
  constructor
  · rintro rfl
    exact resolves.exists_assignsOnly proper
  · rintro ⟨choice, unique⟩
    exact eq_nil_of_stuck (resolves.proper proper) resolves.stuck
      ((resolves.assignsOnly_iff proper).mp unique).2

end Orders

section Explanations

/-- The allergens of the foods, each with the ingredient of a choice. -/
def listed (foods : List Food) (choice : Text → Text) : List (Text × Text) :=
  (allergens foods).map fun allergen => (allergen, choice allergen)

@[simp] theorem map_fst_listed (foods : List Food) (choice : Text → Text) :
    (listed foods choice).map Prod.fst = allergens foods := by
  simp [listed, Function.comp_def]

theorem map_fst_eq_allergens (explains : Explains foods found) :
    found.map Prod.fst = allergens foods := by
  have once : (found.map Prod.fst).Nodup :=
    List.pairwise_map.mpr (explains.ordered.imp fun ordered => ordered.2)
  have keys : (found.map Prod.fst).Perm (allergens foods) :=
    (List.perm_ext_iff_of_nodup once (nodup_allergens foods)).mpr fun allergen => by
      rw [explains.listed, mem_allergens]
  refine keys.eq_of_pairwise (fun _ _ _ _ => precedes_antisymm) ?_ ((pairwise_allergens foods).imp And.left)
  exact List.pairwise_map.mpr (explains.ordered.imp fun ordered => ordered.1)

/-- A choice that agrees with the pairs of a list gives the list back from its first members. -/
theorem eq_map_fst (agrees : ∀ entry ∈ found, choice entry.1 = entry.2) :
    found = (found.map Prod.fst).map fun allergen => (allergen, choice allergen) := by
  rw [List.map_map]
  refine (List.map_id found).symm.trans (List.map_congr_left fun entry member => ?_)
  simp [agrees entry member]

/-- The foods are explained by the assignments of suspects to allergens. -/
theorem explains_iff : Explains foods found ↔ ∃ choice,
    Assigns (names (candidates foods)) (Suspects (candidates foods)) choice ∧
      found = listed foods choice := by
  constructor
  · intro explains
    have keys := map_fst_eq_allergens explains
    obtain ⟨choice, agrees⟩ := exists_choice (keys ▸ nodup_allergens foods)
    have same : found = listed foods choice := by
      rw [listed, ← keys]
      exact eq_map_fst agrees
    refine ⟨choice, ⟨fun allergen among => ?_, ?_⟩, same⟩
    · rw [names_candidates, List.mem_toFinset] at among
      refine (suspects_candidates among).mpr ?_
      have member : (allergen, choice allergen) ∈ found :=
        same ▸ List.mem_map_of_mem (f := fun allergen => (allergen, choice allergen)) among
      exact explains.suspected _ member
    · have distinct := explains.distinct
      rw [same, listed, List.map_map] at distinct
      rw [names_candidates]
      intro one memberOne two memberTwo equal
      exact List.inj_on_of_nodup_map distinct (List.mem_toFinset.mp memberOne)
        (List.mem_toFinset.mp memberTwo) equal
  · rintro ⟨choice, ⟨fit, distinct⟩, rfl⟩
    rw [names_candidates] at fit distinct
    refine ⟨?_, fun allergen => ?_, fun entry member => ?_, ?_⟩
    · exact List.pairwise_map.mpr (pairwise_allergens foods)
    · rw [map_fst_listed, mem_allergens]
    · obtain ⟨allergen, among, rfl⟩ := List.mem_map.mp member
      exact (suspects_candidates among).mp (fit allergen (List.mem_toFinset.mpr among))
    · rw [listed, List.map_map]
      exact List.Nodup.map_on (fun one memberOne two memberTwo equal =>
        distinct (List.mem_toFinset.mpr memberOne) (List.mem_toFinset.mpr memberTwo) equal)
        (nodup_allergens foods)

theorem listed_eq_listed_iff {other : Text → Text} : listed foods choice = listed foods other ↔
    ∀ allergen ∈ names (candidates foods), choice allergen = other allergen := by
  simp [listed, names_candidates]

theorem explainsOnly_iff : ExplainsOnly foods found ↔ ∃ choice,
    AssignsOnly (names (candidates foods)) (Suspects (candidates foods)) choice ∧
      found = listed foods choice :=
  only_iff_exists_assignsOnly (fun _ => explains_iff) fun _ _ => listed_eq_listed_iff

/-- What is found without anything left, in the order of the allergens, is what the assignment lists. -/
theorem Resolves.inOrder_eq_listed (resolves : Resolves (candidates foods) found [])
    (unique : AssignsOnly (names (candidates foods)) (Suspects (candidates foods)) choice) :
    inOrder found = listed foods choice := by
  have proper := proper_candidates foods
  have agrees := ((resolves.assignsOnly_iff proper).mp unique).1
  have keys : (found.map Prod.fst).Perm (allergens foods) := by
    simpa [allergens] using resolves.perm proper
  have same : (inOrder found).Perm (listed foods choice) := by
    refine (List.mergeSort_perm _ _).trans ?_
    rw [eq_map_fst agrees]
    exact keys.map _
  have agreeing (entry : Text × Text) (member : entry ∈ listed foods choice) :
      entry.2 = choice entry.1 := by
    obtain ⟨allergen, _, rfl⟩ := List.mem_map.mp member
    rfl
  have sortedFound : (inOrder found).Pairwise fun one two => precedes one.1 two.1 = true := by
    refine List.pairwise_mergeSort ?_ ?_ _
    · exact fun _ _ _ => precedes_trans
    · exact fun _ _ => precedes_total _ _
  have sortedListed : (listed foods choice).Pairwise fun one two => precedes one.1 two.1 = true :=
    List.pairwise_map.mpr ((pairwise_allergens foods).imp And.left)
  refine same.eq_of_pairwise (fun one two memberOne memberTwo forth back => ?_) sortedFound
    sortedListed
  have name : one.1 = two.1 := precedes_antisymm forth back
  refine Prod.ext name ?_
  rw [agreeing one (same.mem_iff.mp memberOne), agreeing two memberTwo, name]

/-- Whatever the order of picking, it leaves nothing exactly when the foods are explained in one way,
and then it finds that way. -/
theorem Resolves.explainsOnly_iff (resolves : Resolves (candidates foods) found left)
    (result : List (Text × Text)) :
    ExplainsOnly foods result ↔ left = [] ∧ inOrder found = result := by
  rw [Allergens.explainsOnly_iff]
  constructor
  · rintro ⟨choice, unique, rfl⟩
    obtain rfl := (resolves.left_eq_nil_iff (proper_candidates foods)).mpr ⟨choice, unique⟩
    exact ⟨rfl, resolves.inOrder_eq_listed unique⟩
  · rintro ⟨rfl, rfl⟩
    obtain ⟨choice, unique⟩ := resolves.exists_assignsOnly (proper_candidates foods)
    exact ⟨choice, unique, resolves.inOrder_eq_listed unique⟩

end Explanations

/-- The dangerous ingredients are found exactly when the foods are explained in one way, and then they
are the ingredients of that way, listed in the order of the allergens; otherwise the report is that there
is no solution. Any other order of picking allergens with a single suspect ends alike. -/
theorem dangerous_eq_ok_iff (foods : List Food) :
    (∀ result, dangerous foods = .ok result ↔ ExplainsOnly foods result) ∧
    (∀ result, ExplainsOnly foods result →
      listDangerous foods = .ok (joined "," (result.map Prod.snd))) ∧
    ((¬ ∃ result, ExplainsOnly foods result) →
      ∃ reason, listDangerous foods = Outcome.report (.noSolution reason)) ∧
    (∀ found left, Resolves (candidates foods) found left →
      ∀ result, dangerous foods = .ok result ↔ left = [] ∧ inOrder found = result) := by
  obtain ⟨found, left, resolves, outcome⟩ := exists_resolves (candidates foods)
  have found_iff (result : List (Text × Text)) :
      dangerous foods = .ok result ↔ ExplainsOnly foods result := by
    rw [resolves.explainsOnly_iff, dangerous, map_eq_ok_iff, outcome]
    split
    · rename_i nothing
      simp [nothing, inOrder]
    · rename_i something
      simp [something]
  refine ⟨found_iff, fun result unique => ?_, fun none => ?_, fun _ _ other result => ?_⟩
  · rw [listDangerous, (found_iff result).mpr unique]
  · unfold listDangerous
    split
    · rename_i result ok
      exact absurd ⟨result, (found_iff result).mp ok⟩ none
    · exact ⟨_, rfl⟩
  · rw [found_iff, other.explainsOnly_iff]

end PuzzleCalendar.Allergens
