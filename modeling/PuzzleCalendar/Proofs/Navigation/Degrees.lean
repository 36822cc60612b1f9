import PuzzleCalendar.Proofs.Navigation.Rotation
import PuzzleCalendar.Proofs.Parsing.Faults

/-! # Sailing by degrees

An instruction turns by degrees, to either side and by any number of quarter turns. One way of sailing keeps the
heading of the ship in degrees, another one rotates a waypoint about it. Both are sums of angles. The steering
vector of a course stands for either of them: it is the unit vector along the heading, or the waypoint. Quarter
turns rotate it by the angle modulo a full turn, which is all that a rotation depends on.
-/

namespace PuzzleCalendar.Navigation

/-- What a line of a text says: a move by the compass, a turn counter-clockwise or a move ahead. -/
inductive Instruction where
  | compass (step : Displacement)
  | turn (degrees : ℤ)
  | ahead (times : ℤ)
deriving DecidableEq, Repr

/-- The instruction with a letter and a value. -/
def Instruction.ofLetter? (letter : Char) (value : ℤ) : Option Instruction :=
  match letter with
  | 'N' => some (.compass ⟨0, value⟩)
  | 'S' => some (.compass ⟨0, -value⟩)
  | 'E' => some (.compass ⟨value, 0⟩)
  | 'W' => some (.compass ⟨-value, 0⟩)
  | 'L' => some (.turn value)
  | 'R' => some (.turn (-value))
  | 'F' => some (.ahead value)
  | _ => none

/-- The instruction of a line, which is a letter and a number. -/
def Instruction.ofLine? : Text → Option Instruction
  | [] => none
  | letter :: value => do Instruction.ofLetter? letter (← (Number.readSigned 64 value).toOption)

/-- A way of sailing: what an instruction makes of a state, whether 64 bits hold all coordinates that come up
then, and where the ship is. -/
structure Sailing (σ : Type) where
  obey : σ → Instruction → σ
  Fits : σ → Instruction → Prop
  ship : σ → Displacement

/-- A ship and its heading in degrees. -/
structure Headed where
  place : Displacement
  heading : ℤ
deriving DecidableEq, Repr

/-- A ship and its waypoint, as seen from the ship. -/
structure Guided where
  place : Displacement
  waypoint : Displacement
deriving DecidableEq, Repr

/-- Compass moves shift the ship, and turns add to its heading. -/
def byHeading : Sailing Headed where
  obey ship
    | .compass step => { ship with place := ship.place.add step }
    | .turn degrees => { ship with heading := ship.heading + degrees }
    | .ahead times => { ship with place := ship.place.add ((Displacement.along ship.heading).scale times) }
  Fits ship
    | .compass step => (ship.place.add step).Held
    | .turn _ => True
    | .ahead times => ((Displacement.along ship.heading).scale times).Held ∧
        (ship.place.add ((Displacement.along ship.heading).scale times)).Held
  ship := Headed.place

/-- Compass moves shift the waypoint, and turns rotate it about the ship. A turn to either side goes
counter-clockwise, one quarter turn after the other. -/
def byWaypoint : Sailing Guided where
  obey ship
    | .compass step => { ship with waypoint := ship.waypoint.add step }
    | .turn degrees => { ship with waypoint := ship.waypoint.turned degrees }
    | .ahead times => { ship with place := ship.place.add (ship.waypoint.scale times) }
  Fits ship
    | .compass step => (ship.waypoint.add step).Held
    | .turn degrees => ∀ quarters : ℕ, quarters < 4 → 90 * (quarters : ℤ) ≤ degrees % 360 →
        (ship.waypoint.turned (90 * quarters)).Held
    | .ahead times => (ship.waypoint.scale times).Held ∧ (ship.place.add (ship.waypoint.scale times)).Held
  ship := Guided.place

/-- Where the ship is after all instructions. -/
def Sailing.destination {σ : Type} (sailing : Sailing σ) (state : σ) (instructions : List Instruction) :
    Displacement :=
  sailing.ship (instructions.foldl sailing.obey state)

/-- 64 bits hold all coordinates that come up, and the distance at the end. -/
def Sailing.FitsAll {σ : Type} (sailing : Sailing σ) : σ → List Instruction → Prop
  | state, [] => (sailing.ship state).distance < 9223372036854775808
  | state, instruction :: rest =>
    sailing.Fits state instruction ∧ sailing.FitsAll (sailing.obey state instruction) rest

instance (ship : Headed) (instruction : Instruction) : Decidable (byHeading.Fits ship instruction) :=
  match instruction with
  | .compass step => inferInstanceAs (Decidable (ship.place.add step).Held)
  | .turn _ => inferInstanceAs (Decidable True)
  | .ahead times => inferInstanceAs (Decidable (((Displacement.along ship.heading).scale times).Held ∧
      (ship.place.add ((Displacement.along ship.heading).scale times)).Held))

instance (ship : Guided) (instruction : Instruction) : Decidable (byWaypoint.Fits ship instruction) :=
  match instruction with
  | .compass step => inferInstanceAs (Decidable (ship.waypoint.add step).Held)
  | .turn degrees => inferInstanceAs (Decidable (∀ quarters : ℕ, quarters < 4 →
      90 * (quarters : ℤ) ≤ degrees % 360 → (ship.waypoint.turned (90 * quarters)).Held))
  | .ahead times => inferInstanceAs (Decidable ((ship.waypoint.scale times).Held ∧
      (ship.place.add (ship.waypoint.scale times)).Held))

instance Sailing.decidableFitsAll {σ : Type} (sailing : Sailing σ)
    [∀ state instruction, Decidable (sailing.Fits state instruction)] :
    ∀ state instructions, Decidable (sailing.FitsAll state instructions)
  | state, [] => inferInstanceAs (Decidable ((sailing.ship state).distance < 9223372036854775808))
  | state, instruction :: rest =>
    have := sailing.decidableFitsAll (sailing.obey state instruction) rest
    inferInstanceAs (Decidable (sailing.Fits state instruction ∧
      sailing.FitsAll (sailing.obey state instruction) rest))

/-- A part answers with the distance of the destination as long as 64 bits hold all coordinates that come up;
otherwise it faults. -/
def Sailing.Answers {σ : Type} (sailing : Sailing σ) (state : σ) (instructions : List Instruction)
    (part : Outcome SolveError String) : Prop :=
  (sailing.FitsAll state instructions → part = .ok (toString (sailing.destination state instructions).distance)) ∧
    (¬ sailing.FitsAll state instructions → part = Outcome.fault)

section Reading

/-- The action that stands for an instruction. -/
def Instruction.action : Instruction → Action
  | .compass step => .shift step
  | .turn degrees => .turn ((degrees / 90) % 4).toNat
  | .ahead times => .forward times

/-- A turn is made of quarter turns. -/
def Instruction.Quartered (instruction : Instruction) : Prop :=
  ∀ degrees, instruction = .turn degrees → 90 ∣ degrees

variable {line : Text} {action : Action} {degrees value : ℤ}

theorem quartered_turn_iff : (Instruction.turn degrees).Quartered ↔ 90 ∣ degrees := by
  simp [Instruction.Quartered]

theorem readTurn_eq_ok_iff : readTurn degrees = .ok action ↔
    (Instruction.turn degrees).Quartered ∧ (Instruction.turn degrees).action = action := by
  rw [readTurn, quartered_turn_iff, Int.dvd_iff_emod_eq_zero]
  split_ifs with whole
  · simp [whole, Instruction.action]
  · simp [whole, Outcome.report]

theorem neg_eq_of_negated {opposite : ℤ} (read : negated value = .ok opposite) : -value = opposite :=
  (Number.int64?_eq_some_iff.mp (Outcome.orFault_eq_ok_iff.mp read)).1

/-- The instruction of a letter and a value that make an action. -/
theorem ofLetter?_of_ofCode {code : Char} (read : Action.ofCode code value = .ok action) :
    ∃ instruction, Instruction.ofLetter? code value = some instruction ∧ instruction.Quartered ∧
      instruction.action = action := by
  unfold Action.ofCode at read
  -- The letters in their order; S, W and R negate the value first.
  split at read
  · cases read
    exact ⟨.compass ⟨0, value⟩, rfl, nofun, rfl⟩
  · obtain ⟨_, opposite, rest⟩ := bind_eq_ok_iff.mp read
    obtain rfl := neg_eq_of_negated opposite
    cases rest
    exact ⟨.compass ⟨0, -value⟩, rfl, nofun, rfl⟩
  · cases read
    exact ⟨.compass ⟨value, 0⟩, rfl, nofun, rfl⟩
  · obtain ⟨_, opposite, rest⟩ := bind_eq_ok_iff.mp read
    obtain rfl := neg_eq_of_negated opposite
    cases rest
    exact ⟨.compass ⟨-value, 0⟩, rfl, nofun, rfl⟩
  · exact ⟨.turn value, rfl, readTurn_eq_ok_iff.mp read⟩
  · obtain ⟨_, opposite, rest⟩ := bind_eq_ok_iff.mp read
    obtain rfl := neg_eq_of_negated opposite
    exact ⟨.turn (-value), rfl, readTurn_eq_ok_iff.mp rest⟩
  · cases read
    exact ⟨.ahead value, rfl, nofun, rfl⟩
  · cases read

theorem ofLine?_of_read (read : Action.read line = .ok action) :
    ∃ instruction, Instruction.ofLine? line = some instruction ∧ instruction.Quartered ∧
      instruction.action = action := by
  cases line with
  | nil => cases read
  | cons code value =>
    simp only [Action.read] at read
    split_ifs at read with single
    · cases number : Number.readSigned 64 value with
      | error reason => simp [number, Outcome.report] at read
      | ok value =>
        rw [number] at read
        obtain ⟨instruction, letter, same⟩ := ofLetter?_of_ofCode read
        refine ⟨instruction, ?_, same⟩
        rw [Instruction.ofLine?, number]
        exact letter
    · cases read

/-- The lines that make actions are instructions, in the same order. -/
theorem mapM_ofLine?_of_read {lines : List Text} {actions : List Action}
    (read : List.Forall₂ (fun line action => Action.read line = .ok action) lines actions) :
    ∃ instructions, lines.mapM Instruction.ofLine? = some instructions ∧
      (∀ instruction ∈ instructions, instruction.Quartered) ∧ instructions.map Instruction.action = actions := by
  induction read with
  | nil => exact ⟨[], rfl, by simp, rfl⟩
  | cons first _ ih =>
    obtain ⟨instruction, line, quartered, rfl⟩ := ofLine?_of_read first
    obtain ⟨instructions, lines, others, rfl⟩ := ih
    refine ⟨instruction :: instructions, ?_, List.forall_mem_cons.mpr ⟨quartered, others⟩, rfl⟩
    rw [List.mapM_cons, line, lines]
    rfl

end Reading

section Voyages

variable {σ : Type} {sailing : Sailing σ} {compass : Compass} {course next : Course} {state : σ}
  {instruction : Instruction} {instructions : List Instruction} {degrees : ℤ} {total : ℕ}

/-- Courses stand for the states of a way of sailing. They follow an instruction exactly where 64 bits hold all
coordinates, to the course that stands for the state after it. -/
structure Tracks (sailing : Sailing σ) (compass : Compass) (course : σ → Course) : Prop where
  ship (state : σ) : (course state).ship = sailing.ship state
  follow {state : σ} {instruction : Instruction} {next : Course} (held : (course state).vector.Held)
    (quartered : instruction.Quartered) : (course state).follow? compass instruction.action = some next ↔
      sailing.Fits state instruction ∧ course (sailing.obey state instruction) = next

/-- Quarter turns go to the angle that is left of a turn after whole turns. -/
theorem quarters_mul (whole : 90 ∣ degrees) : 90 * (((degrees / 90) % 4).toNat : ℤ) = degrees % 360 := by
  obtain ⟨quarters, rfl⟩ := whole
  omega

theorem rotate?_turn_eq_some_iff {vector result : Displacement} (held : vector.Held) (whole : 90 ∣ degrees) :
    vector.rotate? ((degrees / 90) % 4).toNat = some result ↔ vector.turned degrees = result ∧
      ∀ quarters : ℕ, quarters < 4 → 90 * (quarters : ℤ) ≤ degrees % 360 →
        (vector.turned (90 * quarters)).Held := by
  rw [rotate?_eq_some_iff held, quarters_mul whole, turned_emod, ← quarters_mul whole]
  refine and_congr_right fun _ => forall_congr' fun passed => ?_
  rw [← and_imp]
  apply imp_congr_left
  omega

/-- A turn of the unit vector along a heading adds to the heading. -/
theorem along_turned_whole (heading : ℤ) (whole : 90 ∣ degrees) :
    (Displacement.along heading).turned degrees = Displacement.along (heading + degrees) := by
  rw [← turned_emod, ← quarters_mul whole, along_turned, quarters_mul whole, ← along_emod, Int.add_emod_emod,
    along_emod]

theorem follow?_shift_ship_iff {step : Displacement} : course.follow? .ship (.shift step) = some next ↔
    (course.ship.add step).Held ∧ { course with ship := course.ship.add step } = next := by
  simp only [Course.follow?, Option.bind_eq_bind, Option.bind_eq_some_iff, Option.pure_def, Option.some.injEq,
    add?_eq_some_iff, and_assoc, exists_eq_left']

theorem follow?_shift_vector_iff {step : Displacement} : course.follow? .vector (.shift step) = some next ↔
    (course.vector.add step).Held ∧ { course with vector := course.vector.add step } = next := by
  simp only [Course.follow?, Option.bind_eq_bind, Option.bind_eq_some_iff, Option.pure_def, Option.some.injEq,
    add?_eq_some_iff, and_assoc, exists_eq_left']

theorem follow?_turn_iff (held : course.vector.Held) (whole : 90 ∣ degrees) :
    course.follow? compass (Instruction.turn degrees).action = some next ↔
      (∀ quarters : ℕ, quarters < 4 → 90 * (quarters : ℤ) ≤ degrees % 360 →
        (course.vector.turned (90 * quarters)).Held) ∧
        { course with vector := course.vector.turned degrees } = next := by
  simp only [Instruction.action, Course.follow?, Option.bind_eq_bind, Option.bind_eq_some_iff, Option.pure_def,
    Option.some.injEq, rotate?_turn_eq_some_iff held whole, and_assoc, exists_eq_left']

theorem follow?_forward_iff {times : ℤ} : course.follow? compass (.forward times) = some next ↔
    ((course.vector.scale times).Held ∧ (course.ship.add (course.vector.scale times)).Held) ∧
      { course with ship := course.ship.add (course.vector.scale times) } = next := by
  simp only [Course.follow?, Option.bind_eq_bind, Option.bind_eq_some_iff, Option.pure_def, Option.some.injEq,
    add?_eq_some_iff, scale?_eq_some_iff, and_assoc, exists_eq_left']

theorem tracks_byHeading :
    Tracks byHeading .ship fun state => ⟨state.place, Displacement.along state.heading⟩ where
  ship _ := rfl
  follow {state instruction next} held quartered := by
    cases instruction with
    | compass step => exact follow?_shift_ship_iff
    | turn degrees =>
      have whole := quartered_turn_iff.mp quartered
      have each (quarters : ℕ) : ((Displacement.along state.heading).turned (90 * quarters)).Held := by
        rw [along_turned]
        exact held_along _
      rw [follow?_turn_iff held whole, along_turned_whole _ whole]
      exact and_congr_left' (iff_of_true (fun quarters _ _ => each quarters) trivial)
    | ahead times => exact follow?_forward_iff

theorem tracks_byWaypoint : Tracks byWaypoint .vector fun state => ⟨state.place, state.waypoint⟩ where
  ship _ := rfl
  follow {state instruction next} held quartered := by
    cases instruction with
    | compass step => exact follow?_shift_vector_iff
    | turn degrees => exact follow?_turn_iff held (quartered_turn_iff.mp quartered)
    | ahead times => exact follow?_forward_iff

/-- The vector that steers stays among the integers of 64 bits. -/
theorem held_vector_of_follow? {action : Action} (held : course.vector.Held)
    (followed : course.follow? compass action = some next) : next.vector.Held := by
  cases action with
  | shift step =>
    cases compass with
    | ship =>
      obtain ⟨-, rfl⟩ := follow?_shift_ship_iff.mp followed
      exact held
    | vector =>
      obtain ⟨shifted, rfl⟩ := follow?_shift_vector_iff.mp followed
      exact shifted
  | turn quarters =>
    obtain ⟨vector, rotated, same⟩ := Option.bind_eq_some_iff.mp followed
    obtain ⟨rfl, each⟩ := (rotate?_eq_some_iff held).mp rotated
    cases same
    exact each quarters le_rfl
  | forward times =>
    obtain ⟨-, rfl⟩ := follow?_forward_iff.mp followed
    exact held

/-- The courses along all instructions end at the distance of the destination. -/
theorem Tracks.run {course : σ → Course} (tracks : Tracks sailing compass course) (held : (course state).vector.Held)
    (quartered : ∀ instruction ∈ instructions, instruction.Quartered) :
    (((instructions.map Instruction.action).foldlM (Course.follow? compass) (course state)).bind
      fun last => last.ship.distance?) = some total ↔
      sailing.FitsAll state instructions ∧ (sailing.destination state instructions).distance = total := by
  induction instructions generalizing state with
  | nil =>
    rw [List.map_nil, List.foldlM_nil, Option.pure_def, Option.bind_some, tracks.ship, distance?_eq_some_iff,
      and_comm]
    exact and_congr_left fun same => by rw [← same]; rfl
  | cons instruction rest ih =>
    obtain ⟨whole, others⟩ := List.forall_mem_cons.mp quartered
    rw [List.map_cons, List.foldlM_cons, Option.bind_eq_bind, Option.bind_assoc, Option.bind_eq_some_iff,
      Sailing.FitsAll, and_assoc]
    constructor
    · rintro ⟨next, followed, later⟩
      have nextHeld := held_vector_of_follow? held followed
      obtain ⟨fits, rfl⟩ := (tracks.follow held whole).mp followed
      exact ⟨fits, (ih nextHeld others).mp later⟩
    · rintro ⟨fits, later⟩
      have followed := (tracks.follow held whole).mpr ⟨fits, rfl⟩
      exact ⟨_, followed, (ih (held_vector_of_follow? held followed) others).mpr later⟩

theorem Tracks.answers {vector : Displacement} {course : σ → Course} (tracks : Tracks sailing compass course)
    (start : course state = ⟨⟨0, 0⟩, vector⟩) (held : vector.Held)
    (quartered : ∀ instruction ∈ instructions, instruction.Quartered) :
    sailing.Answers state instructions (answer compass vector (instructions.map Instruction.action)) := by
  have sailed (total : ℕ) : sail? compass vector (instructions.map Instruction.action) = some total ↔
      sailing.FitsAll state instructions ∧ (sailing.destination state instructions).distance = total := by
    rw [← tracks.run (by rw [start]; exact held) quartered, start]
    rfl
  constructor
  · intro fits
    rw [answer, (sailed _).mpr ⟨fits, rfl⟩]
    rfl
  · intro unfit
    have nowhere : sail? compass vector (instructions.map Instruction.action) = none :=
      Option.eq_none_iff_forall_ne_some.mpr fun total found => unfit ((sailed total).mp found).1
    rw [answer, nowhere]
    rfl

end Voyages

/-- The lines of a text that is read are instructions that turn by multiples of 90 degrees. The first part answers
with the distance of a ship that keeps its heading in degrees, from the east. The second part answers with the
distance of a ship that moves by a waypoint and rotates it, at first 10 to the east and 1 to the north. Both fault
where an integer of 64 bits overflows. -/
theorem parts_sail_by_degrees {text : Text} {actions : List Action} (parsed : parse text = .ok actions) :
    ∃ instructions, (Input.recordLines text).mapM Instruction.ofLine? = some instructions ∧
      (∀ degrees, .turn degrees ∈ instructions → 90 ∣ degrees) ∧
      byHeading.Answers ⟨⟨0, 0⟩, 0⟩ instructions (answer .ship ⟨1, 0⟩ actions) ∧
      byWaypoint.Answers ⟨⟨0, 0⟩, ⟨10, 1⟩⟩ instructions (answer .vector ⟨10, 1⟩ actions) := by
  have read : List.Forall₂ (fun line action => Action.read line = .ok action) (Input.recordLines text) actions :=
    (Input.readFallibleLines_eq_ok_iff.mp parsed).imp fun _ _ => Outcome.mapReport_eq_ok_iff.mp
  obtain ⟨instructions, lines, quartered, rfl⟩ := mapM_ofLine?_of_read read
  refine ⟨instructions, lines, fun degrees listed => quartered_turn_iff.mp (quartered _ listed), ?_, ?_⟩
  · exact tracks_byHeading.answers rfl (by decide) quartered
  · exact tracks_byWaypoint.answers rfl (by decide) quartered

/-- Turns to both sides, beyond a whole turn and by negative angles, and moves by negative values. -/
def zigzag : Text := "F10\nN-3\nR450\nF7\nL-90\nW2\nF-11\n".toList

theorem parts_sail_by_degrees_zigzag : ∃ actions, parse zigzag = .ok actions ∧
    answer .ship ⟨1, 0⟩ actions = .ok "29" ∧ answer .vector ⟨10, 1⟩ actions = .ok "300" := by
  have parsed : parse zigzag = .ok [.forward 10, .shift ⟨0, -3⟩, .turn 3, .forward 7, .turn 3, .shift ⟨-2, 0⟩,
      .forward (-11)] := by decide +kernel
  obtain ⟨instructions, lines, -, first, second⟩ := parts_sail_by_degrees parsed
  have read : (Input.recordLines zigzag).mapM Instruction.ofLine? = some [.ahead 10, .compass ⟨0, -3⟩, .turn (-450),
      .ahead 7, .turn (-90), .compass ⟨-2, 0⟩, .ahead (-11)] := by decide +kernel
  obtain rfl := Option.some.inj (lines.symm.trans read)
  exact ⟨_, parsed, first.1 (by decide +kernel), second.1 (by decide +kernel)⟩

end PuzzleCalendar.Navigation
