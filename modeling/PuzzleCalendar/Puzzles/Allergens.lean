import PuzzleCalendar.Input
import PuzzleCalendar.Puzzle

/-! # Allergens in foods

Each food lists ingredients and some of its allergens. An allergen is in an ingredient that every food
listing the allergen has. An allergen with a single such ingredient takes it from the other allergens,
one after the other, until each allergen has its ingredient or none has a single one.
-/

namespace PuzzleCalendar.Allergens

open Text

/-- A food with the names of its ingredients and of known allergens. -/
structure Food where
  ingredients : List Text
  allergens : List Text
deriving DecidableEq, Repr

/-- Why a line is no food. -/
inductive FoodError where
  | unclosedList
  | noIngredients
deriving DecidableEq, Repr

/-- The sentence that reports a food error. -/
def FoodError.message : FoodError → String
  | unclosedList => "unclosed allergen list"
  | noIngredients => "food without ingredients"

/-- Reads one food. -/
def Food.read (line : Text) : Except FoodError Food := do
  let (ingredients, allergens) ←
    match splitOnceAt? " (contains ".toList line with
    | none => pure (line, [])
    | some (ingredients, rest) =>
      match dropTail? [')'] rest with
      | none => .error .unclosedList
      | some list => pure (ingredients, splitAllAt ", ".toList list)
  let ingredients := words ingredients
  if ingredients.isEmpty then .error .noIngredients else pure { ingredients, allergens }

/-- Leaves an allergen only those of its suspects that are among some ingredients. All of these are suspects
of an allergen without an entry, which gets one at its place in the order of a dictionary. -/
def narrow (ingredients : List Text) (allergen : Text) : List (Text × List Text) → List (Text × List Text)
  | [] => [(allergen, ingredients)]
  | (name, suspects) :: rest =>
    if name = allergen then (name, suspects.filter (ingredients.contains ·)) :: rest
    else if precedes allergen name then (allergen, ingredients) :: (name, suspects) :: rest
    else (name, suspects) :: narrow ingredients allergen rest

/-- Narrows the suspects of all allergens that a food lists. -/
def narrowAll (known : List (Text × List Text)) (food : Food) : List (Text × List Text) :=
  food.allergens.foldl (fun known allergen => narrow food.ingredients.eraseDups allergen known) known

/-- Each allergen with its suspects after all foods, in the order of a dictionary. -/
def candidates (foods : List Food) : List (Text × List Text) :=
  foods.foldl narrowAll []

/-- The first allergen with a single suspect, and that suspect. -/
def single? (unresolved : List (Text × List Text)) : Option (Text × Text) :=
  unresolved.findSome? fun entry =>
    match entry.2 with
    | [ingredient] => some (entry.1, ingredient)
    | _ => none

theorem mem_of_single? {unresolved : List (Text × List Text)} {allergen ingredient : Text}
    (found : single? unresolved = some (allergen, ingredient)) :
    (allergen, [ingredient]) ∈ unresolved := by
  obtain ⟨⟨name, suspects⟩, member, single⟩ := List.exists_of_findSome?_eq_some found
  match suspects, single with
  | [only], single =>
    simp only [Option.some.injEq, Prod.mk.injEq] at single
    obtain ⟨rfl, rfl⟩ := single
    exact member

/-- The other allergens without an ingredient. -/
def withhold (allergen ingredient : Text) (unresolved : List (Text × List Text)) :
    List (Text × List Text) :=
  (unresolved.filter (·.1 != allergen)).map fun entry => (entry.1, entry.2.filter (· != ingredient))

/-- A resolved allergen is one allergen less to resolve. -/
theorem length_withhold_lt {unresolved : List (Text × List Text)} {allergen ingredient : Text}
    (found : single? unresolved = some (allergen, ingredient)) :
    (withhold allergen ingredient unresolved).length < unresolved.length := by
  simp only [withhold, List.length_map]
  exact List.length_filter_lt_length_iff_exists.mpr ⟨_, mem_of_single? found, by simp⟩

/-- The ingredient of each allergen, in the order in which they are found; or the allergens that are
left when none of them has a single suspect. -/
def resolve (unresolved : List (Text × List Text)) : Except (List Text) (List (Text × Text)) :=
  match found : single? unresolved with
  | some (allergen, ingredient) =>
    have := length_withhold_lt found
    (resolve (withhold allergen ingredient unresolved)).map ((allergen, ingredient) :: ·)
  | none => if unresolved.isEmpty then .ok [] else .error (unresolved.map Prod.fst)
termination_by unresolved.length

/-- The ingredient of each allergen, in the order of the allergens. -/
def dangerous (foods : List Food) : Except (List Text) (List (Text × Text)) :=
  (resolve (candidates foods)).map fun found =>
    found.mergeSort fun first second => precedes first.1 second.1

/-- The foods of all lines. -/
def parse (text : Text) : Outcome ParseError (List Food) :=
  Outcome.ofExcept do
    let foods ← Input.readLines (fun line => (Food.read line).mapError FoodError.message) text
    if foods.isEmpty then .error (.missingData "no foods") else pure foods

/-- How often the foods list an ingredient that no allergen suspects. -/
def countSafe (foods : List Food) : Outcome SolveError String :=
  let suspicious := (candidates foods).flatMap Prod.snd
  .ok (toString ((foods.flatMap Food.ingredients).countP fun ingredient =>
    !suspicious.contains ingredient))

/-- Texts with a separator between them. -/
def joined (separator : String) (texts : List Text) : String :=
  separator.intercalate (texts.map String.ofList)

/-- The ingredients with an allergen, in the order of the allergens. -/
def listDangerous (foods : List Food) : Outcome SolveError String :=
  match dangerous foods with
  | .ok found => .ok (joined "," (found.map Prod.snd))
  | .error left => Outcome.report (.noSolution ("cannot pin down " ++ joined ", " left))

/-- The allergen assessment. -/
def puzzle : Puzzle := Puzzle.ofParts parse countSafe listDangerous

end PuzzleCalendar.Allergens
