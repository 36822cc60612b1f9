import PuzzleCalendar.Catalogue
import PuzzleCalendar.Proofs.Console.Repair

/-! # Sessions without a history

A part may change the shared data of its session, and two puzzles of the catalogue do: the cipher
remembers the invalid number, and the console patches its program and takes every patch back. For each
puzzle there is a relation between the data of a fresh session and what parts make of it that every
part preserves, whatever its outcome is, and that no outcome shows. So the parts of a session answer
in any order and any number as each of them answers alone.
-/

namespace PuzzleCalendar

namespace Puzzle

/-- `Leaves shared left` says that parts may turn `shared` into `left`. A puzzle is forgetful when its
parts answer both alike and stay within the relation. -/
structure Forgetful (puzzle : Puzzle) (Leaves : puzzle.Shared → puzzle.Shared → Prop) : Prop where
  untouched : ∀ shared, Leaves shared shared
  outcome : ∀ {shared left}, Leaves shared left → ∀ part,
    (puzzle.solve part left).1 = (puzzle.solve part shared).1
  kept : ∀ {shared left}, Leaves shared left → ∀ part, Leaves shared (puzzle.solve part left).2

variable {Shared : Type} {parse : Text → Outcome ParseError Shared}

/-- For a puzzle of two parts it is enough to look at these two. -/
theorem forgetful_twoParts {first second : Shared → Outcome SolveError String × Shared}
    {Leaves : Shared → Shared → Prop} (untouched : ∀ shared, Leaves shared shared)
    (first_step : ∀ {shared left}, Leaves shared left →
      (first left).1 = (first shared).1 ∧ Leaves shared (first left).2)
    (second_step : ∀ {shared left}, Leaves shared left →
      (second left).1 = (second shared).1 ∧ Leaves shared (second left).2) :
    (twoParts parse first second).Forgetful Leaves where
  untouched := untouched
  outcome related part := by
    simp only [twoParts]
    split
    · exact (first_step related).1
    · exact (second_step related).1
    · rfl
  kept related part := by
    simp only [twoParts]
    split
    · exact (first_step related).2
    · exact (second_step related).2
    · exact related

theorem forgetful_ofParts {first second : Shared → Outcome SolveError String} :
    (ofParts parse first second).Forgetful Eq :=
  forgetful_twoParts (fun _ => rfl) (fun same => ⟨same ▸ rfl, same⟩) (fun same => ⟨same ▸ rfl, same⟩)

theorem forgetful_ofPart {only : Shared → Outcome SolveError String} :
    (ofPart parse only).Forgetful Eq where
  untouched _ := rfl
  outcome same _ := same ▸ rfl
  kept same part := by
    simp only [ofPart]
    split <;> exact same

variable {puzzle : Puzzle} {Leaves : puzzle.Shared → puzzle.Shared → Prop}

/-- Refusing a part number changes nothing. -/
theorem Forgetful.solveInRange (forgetful : puzzle.Forgetful Leaves) {shared left : puzzle.Shared}
    (related : Leaves shared left) (part : Nat) :
    (puzzle.solveInRange part left).1 = (puzzle.solveInRange part shared).1 ∧
      Leaves shared (puzzle.solveInRange part left).2 := by
  unfold Puzzle.solveInRange
  split
  · exact ⟨forgetful.outcome related part, forgetful.kept related part⟩
  · exact ⟨rfl, related⟩

end Puzzle

namespace Session

/-- The outcomes of a session that starts from `left` are those of single parts on `shared`. -/
theorem solveAll_of_leaves {puzzle : Puzzle} {Leaves : puzzle.Shared → puzzle.Shared → Prop}
    (forgetful : puzzle.Forgetful Leaves) (year day : Nat) {shared left : puzzle.Shared}
    (related : Leaves shared left) (parts : List Nat) :
    Session.solveAll ⟨puzzle, year, day, left⟩ parts =
      parts.map fun part => (Session.solve ⟨puzzle, year, day, shared⟩ part).1 := by
  induction parts generalizing left with
  | nil => rfl
  | cons part rest ih =>
    obtain ⟨outcome, kept⟩ := forgetful.solveInRange related part
    simp only [solveAll, List.map_cons]
    exact List.cons_eq_cons.mpr ⟨outcome, ih kept⟩

end Session

namespace Console

/-- Both parts of the console leave the program as it was. -/
theorem forgetful_puzzle : puzzle.Forgetful Eq :=
  Puzzle.forgetful_twoParts (fun _ => rfl) (fun same => ⟨same ▸ rfl, same⟩)
    (fun {shared _} same => same ▸ ⟨rfl, (repairValue_snd shared).symm⟩)

end Console

namespace Cipher

/-- A transmission, or the one that remembers its first invalid number. -/
def Remembers (fresh left : Transmission) : Prop :=
  left = fresh ∨ fresh.invalid? = none ∧ ∃ invalid,
    firstInvalid? fresh.preamble fresh.numbers = some (some invalid) ∧
      left = { fresh with invalid? := some invalid }

/-- Asking for the invalid number gives the same answer before and after it is remembered. -/
theorem invalid_of_remembers {fresh left : Transmission} (related : Remembers fresh left) :
    left.invalid.1 = fresh.invalid.1 ∧ Remembers fresh left.invalid.2 := by
  rcases related with rfl | ⟨unknown, invalid, found, rfl⟩
  · refine ⟨rfl, ?_⟩
    cases known : left.invalid? with
    | some invalid => exact .inl (by simp [Transmission.invalid, known])
    | none =>
      cases search : firstInvalid? left.preamble left.numbers with
      | none => exact .inl (by simp [Transmission.invalid, known, search])
      | some result =>
        cases result with
        | none => exact .inl (by simp [Transmission.invalid, known, search])
        | some invalid =>
          exact .inr ⟨known, invalid, search, by simp [Transmission.invalid, known, search]⟩
  · constructor
    · simp [Transmission.invalid, unknown, found]
    · exact .inr ⟨unknown, invalid, found, rfl⟩

theorem numbers_of_remembers {fresh left : Transmission} (related : Remembers fresh left) :
    left.numbers = fresh.numbers := by
  rcases related with rfl | ⟨_, _, _, rfl⟩ <;> rfl

theorem forgetful_puzzle : puzzle.Forgetful Remembers := by
  refine Puzzle.forgetful_twoParts (fun _ => .inl rfl) ?_ ?_
  · intro fresh left related
    obtain ⟨answer, kept⟩ := invalid_of_remembers related
    exact ⟨congrArg (·.map toString) answer, kept⟩
  · intro fresh left related
    obtain ⟨answer, kept⟩ := invalid_of_remembers related
    have before := (invalid_of_remembers (.inl rfl : Remembers fresh fresh)).2
    refine ⟨?_, kept⟩
    simp only [findWeakness, answer, numbers_of_remembers kept, numbers_of_remembers before]

end Cipher

namespace Catalogue

/-- Every puzzle of the catalogue is forgetful. -/
theorem forgetful_of_mem {plugin : Plugin} (listed : plugin ∈ all) :
    ∃ Leaves, plugin.puzzle.Forgetful Leaves := by
  simp only [all, year2020, depths, calories, List.cons_append, List.nil_append, List.mem_cons,
    List.not_mem_nil, or_false] at listed
  rcases listed with rfl | rfl | rfl | rfl | rfl | rfl | rfl | rfl | rfl | rfl | rfl | rfl | rfl |
    rfl | rfl | rfl | rfl | rfl | rfl | rfl | rfl | rfl | rfl | rfl | rfl | rfl
  all_goals first
    | exact ⟨Eq, Puzzle.forgetful_ofParts⟩
    | exact ⟨Eq, Puzzle.forgetful_ofPart⟩
    | exact ⟨Eq, Console.forgetful_puzzle⟩
    | exact ⟨Cipher.Remembers, Cipher.forgetful_puzzle⟩

end Catalogue

namespace Session

/-- On a session of any puzzle of the catalogue, parts solved one after the other end as each of them
ends alone on the fresh session, with values, reports and faults alike. -/
theorem solveAll_eq_map_solve (plugin : Plugin) (listed : plugin ∈ Catalogue.all) (year day : Nat)
    (input : Text) (session : Session)
    (started : Session.start plugin.puzzle year day input = .ok session) (parts : List Nat) :
    session.solveAll parts = parts.map fun part => (session.solve part).1 := by
  obtain ⟨Leaves, forgetful⟩ := Catalogue.forgetful_of_mem listed
  unfold Session.start at started
  split at started
  · rename_i shared _
    obtain rfl := Except.ok.inj started
    exact solveAll_of_leaves forgetful year day (forgetful.untouched shared) parts
  · contradiction

/-- Twenty-five ones and a five, after which the cipher knows its invalid number. -/
theorem solveAll_remembered :
    ∃ session, Session.start Cipher.puzzle 2020 9
        ((List.replicate 25 ['1', '\n']).flatten ++ ['5']) = .ok session ∧
      session.solveAll [2, 1, 3, 2] = [2, 1, 3, 2].map fun part => (session.solve part).1 :=
  have started := rfl
  ⟨_, started, solveAll_eq_map_solve ⟨⟨2020, 9⟩, Cipher.puzzle, ["search"]⟩
    (by simp [Catalogue.all, Catalogue.year2020]) 2020 9 _ _ started _⟩

end Session

end PuzzleCalendar
