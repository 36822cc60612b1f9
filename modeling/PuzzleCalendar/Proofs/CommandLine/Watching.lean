import Mathlib.Algebra.Ring.Int.Defs
import Mathlib.Algebra.Ring.Nat
import Mathlib.Data.List.Basic
import PuzzleCalendar.CommandLine.Execution

/-! # Watching executions

A run is watched through a state, with files that do not change, a clock with any readings and a log.
Apart from times, its results are those of each day by itself, one day after the other, and the log has
an entry for each of them. Their times are the time of one parse for each day with a session, and
times between readings of the clock.
-/

namespace PuzzleCalendar.CommandLine

/-- The input of a day. -/
def InputStore.inputOf (store : InputStore) (files : Path → Except FileError Text) (date : Date) :
    Except InputError Text :=
  (store.read (m := Id) (fun path => pure (files path)) date).run

/-- The answer of a part, which a fault does not have. -/
def answer? (outcome : Outcome SolveError String) : Option (Except PartError String) :=
  outcome.result?.map fun result => result.mapError .solve

/-- A result apart from its times; a fault has no answer. -/
structure Untimed where
  date : Date
  part : Nat
  answer : Option (Except PartError String)

/-- A result without its times. -/
def PartResult.untimed (result : PartResult) : Untimed := ⟨result.date, result.part, some result.answer⟩

/-- What comes of parts that are solved one after the other on the same session. -/
def untimedParts (session : Session) (date : Date) (parts : List Nat) : List Untimed :=
  (parts.zip (session.solveAll parts)).map fun (part, outcome) => ⟨date, part, answer? outcome⟩

/-- What comes of the selected parts of a day with a given input. -/
def WorkItem.untimed (item : WorkItem) (registry : Registry) (input : Except InputError Text) :
    List Untimed :=
  match input with
  | .error error => item.parts.map fun part => ⟨item.date, part, some (.error (.input error.message))⟩
  | .ok text =>
    match registry.create item.date text with
    | .error .fault => item.parts.map fun part => ⟨item.date, part, none⟩
    | .error (.reported error) =>
      item.parts.map fun part => ⟨item.date, part, some (.error (.setup error.message))⟩
    | .ok session => untimedParts session item.date item.parts

/-- Neither the reader of the input nor a selected part faults. -/
def WorkItem.Faultless (item : WorkItem) (registry : Registry) (input : Except InputError Text) : Prop :=
  ∀ text, input = .ok text → registry.create item.date text ≠ Outcome.fault ∧
    ∀ session, registry.create item.date text = .ok session →
      Outcome.fault ∉ session.solveAll item.parts

/-- The session that a day opens. -/
def WorkItem.session? (item : WorkItem) (registry : Registry) (input : Except InputError Text) :
    Option Session :=
  input.toOption.bind fun text => (registry.create item.date text).toOption

/-- How often parts read the clock: before they are solved, and after it if they are solved. -/
def readingsOf (outcomes : List (Outcome SolveError String)) : Nat :=
  (outcomes.map fun outcome => if outcome.toOption.isSome then 2 else 1).sum

/-- How often a day reads the clock. A day without an input does not, and one that is refused only
before it is. -/
def WorkItem.readings (item : WorkItem) (registry : Registry) (input : Except InputError Text) : Nat :=
  match input with
  | .error _ => 0
  | .ok _ =>
    match item.session? registry input with
    | none => 1
    | some session => 2 + readingsOf (session.solveAll item.parts)

/-- The times of the parses of days that run one after the other, each between the reading before its
session is opened and the next one. Days without a session have none. -/
def parseTimes (clock : Nat → Duration) (registry : Registry)
    (inputOf : Date → Except InputError Text) : Nat → List WorkItem → List Duration
  | _, [] => []
  | reading, item :: items =>
    ((item.session? registry (inputOf item.date)).map fun _ =>
        clock (reading + 1) - clock reading).toList ++
      parseTimes clock registry inputOf (reading + item.readings registry (inputOf item.date)) items

/-- A run that is watched through a state, which counts the readings of the clock and keeps a log. -/
structure Watch (files : Path → Except FileError Text) (clock : Nat → Duration) (σ β : Type) where
  surroundings : Surroundings (StateM σ)
  onResult : PartResult → StateM σ Unit
  readings : σ → Nat
  log : σ → List β
  entry : PartResult → β
  tick : σ → σ
  note : PartResult → σ → σ
  fileAt_eq : ∀ path, surroundings.fileAt path = pure (files path)
  now_eq : surroundings.now = modifyGet fun state => (clock (readings state), tick state)
  onResult_eq : ∀ result, onResult result = modify (note result)
  readings_tick : ∀ state, readings (tick state) = readings state + 1
  log_tick : ∀ state, log (tick state) = log state
  readings_note : ∀ result state, readings (note result state) = readings state
  log_note : ∀ result state, log (note result state) = log state ++ [entry result]

/-- What the results of a run are, and the times in them: those of the parses, where every day has a
selected part, and times between readings of the clock. -/
structure Yields (clock : Nat → Duration) (expected : List Untimed) (filled : Prop)
    (parses : List Duration) (results : List PartResult) : Prop where
  untimed : results.map PartResult.untimed = expected
  parses : filled → results.filterMap PartResult.parseTime = parses
  solves : ∀ result ∈ results, ∃ first second, result.solveTime = clock second - clock first

section Yields

variable {clock : Nat → Duration} {expected : List Untimed} {filled : Prop}
  {parses : List Duration} {results : List PartResult}

theorem Yields.cons (yields : Yields clock expected filled [] results) (holds : filled)
    (result : PartResult) (solve : ∃ first second, result.solveTime = clock second - clock first)
    (weaker : Prop) :
    Yields clock (result.untimed :: expected) weaker result.parseTime.toList (result :: results) where
  untimed := by rw [List.map_cons, yields.untimed]
  parses _ := by
    rw [List.filterMap_cons]
    cases result.parseTime with
    | none => exact yields.parses holds
    | some time => exact congrArg (time :: ·) (yields.parses holds)
  solves := List.forall_mem_cons.mpr ⟨solve, yields.solves⟩

theorem Yields.append {more : List Untimed} {also both : Prop} {times : List Duration}
    {others : List PartResult} (yields : Yields clock expected filled parses results)
    (after : Yields clock more also times others) (first : both → filled) (second : both → also) :
    Yields clock (expected ++ more) both (parses ++ times) (results ++ others) where
  untimed := by rw [List.map_append, yields.untimed, after.untimed]
  parses holds := by
    rw [List.filterMap_append, yields.parses (first holds), after.parses (second holds)]
  solves := List.forall_mem_append.mpr ⟨yields.solves, after.solves⟩

/-- The parts of a day without a session fail without a time. -/
theorem yields_failed (clock : Nat → Duration) (date : Date) (error : PartError) (parts : List Nat) :
    Yields clock (parts.map fun part => ⟨date, part, some (.error error)⟩) filled []
      (parts.map (failedPart date error)) where
  untimed := by simp [PartResult.untimed, failedPart]
  parses _ := by simp [failedPart]
  solves := by
    intro result listed
    obtain ⟨part, -, rfl⟩ := List.mem_map.mp listed
    exact ⟨0, 0, (Int.sub_self _).symm⟩

end Yields

/-- Reading files that do not change has no effect. -/
theorem readFirst_pure {m : Type → Type} [Monad m] [LawfulMonad m]
    (files : Path → Except FileError Text) (date : Date) (tried paths : List Path) :
    InputStore.readFirst (m := m) (fun path => pure (files path)) date tried paths =
      pure (InputStore.readFirst (m := Id) (fun path => pure (files path)) date tried paths).run := by
  induction paths generalizing tried with
  | nil => rfl
  | cons path rest ih =>
    simp only [InputStore.readFirst, pure_bind]
    cases files path with
    | ok text => rfl
    | error error =>
      cases error with
      | missing => exact ih (tried ++ [path])
      | unreadable reason => rfl

namespace Watch

variable {files : Path → Except FileError Text} {clock : Nat → Duration} {σ β : Type}
  (watch : Watch files clock σ β) (registry : Registry) (store : InputStore) (date : Date)

/-- Reading the clock. -/
theorem now_run (state : σ) :
    watch.surroundings.now.run state = pure (clock (watch.readings state), watch.tick state) := by
  rw [watch.now_eq]
  rfl

/-- A run stops at a fault, or it has results, after some readings of the clock and with a log. -/
def Ends (fault : Prop) (yields : List PartResult → Prop) (readings : Nat)
    (log : List PartResult → List β) (after : Option (List PartResult) × σ) : Prop :=
  after.1 = none ∧ fault ∨ ∃ results, after.1 = some results ∧ yields results ∧
    watch.readings after.2 = readings ∧ watch.log after.2 = log results

variable {watch}

theorem Ends.imp {fault worse : Prop} {yields other : List PartResult → Prop} {readings : Nat}
    {log : List PartResult → List β} {after : Option (List PartResult) × σ}
    (ends : watch.Ends fault yields readings log after) (implies : fault → worse)
    (weaken : ∀ results, yields results → other results) :
    watch.Ends worse other readings log after := by
  obtain ⟨stopped, fault⟩ | ⟨results, ended, yields, rest⟩ := ends
  · exact .inl ⟨stopped, implies fault⟩
  · exact .inr ⟨results, ended, weaken results yields, rest⟩

/-- What comes of a run when results come before its own. -/
theorem Ends.prepend {fault worse : Prop} {yields more : List PartResult → Prop} {readings : Nat}
    {log full : List PartResult → List β} {after : Option (List PartResult) × σ}
    (ends : watch.Ends fault yields readings log after) (before : List PartResult)
    (implies : fault → worse) (grow : ∀ results, yields results → more (before ++ results))
    (logged : ∀ results, log results = full (before ++ results)) :
    watch.Ends worse more readings full (after.1.map (before ++ ·), after.2) := by
  obtain ⟨stopped, fault⟩ | ⟨results, ended, yields, read, kept⟩ := ends
  · exact .inl ⟨by rw [stopped]; rfl, implies fault⟩
  · exact .inr ⟨before ++ results, by rw [ended]; rfl, grow results yields, read, by rw [kept, logged]⟩

variable (watch)

/-- What a session answers. -/
theorem solveParts_ends (session : Session) (parseTime : Option Duration) (parts : List Nat)
    (state : σ) :
    watch.Ends (Outcome.fault ∈ session.solveAll parts)
      (Yields clock (untimedParts session date parts) (parts ≠ [] ∨ parseTime = none) parseTime.toList)
      (watch.readings state + readingsOf (session.solveAll parts)) (fun _ => watch.log state)
      ((solveParts watch.surroundings.now session date parseTime parts).run state).run := by
  induction parts generalizing session parseTime state with
  | nil =>
    refine .inr ⟨[], rfl, ⟨rfl, ?_, List.forall_mem_nil _⟩, rfl, rfl⟩
    rintro (filled | rfl)
    · contradiction
    · rfl
  | cons part parts ih =>
    simp only [solveParts, StateT.run_bind, now_run, pure_bind]
    cases solved : session.solve part with
    | mk outcome next =>
      have all : session.solveAll (part :: parts) = outcome :: next.solveAll parts := by
        rw [Session.solveAll, solved]
      have first : untimedParts session date (part :: parts) =
          ⟨date, part, answer? outcome⟩ :: untimedParts next date parts := by
        rw [untimedParts, all]
        rfl
      have read : readingsOf (outcome :: next.solveAll parts) =
          (if outcome.toOption.isSome then 2 else 1) + readingsOf (next.solveAll parts) := rfl
      rw [all, first, read]
      rcases outcome with (error | _) | answer
      · have ends := ih next none (watch.tick state)
        rw [watch.readings_tick, watch.log_tick, Nat.add_assoc] at ends
        refine ends.prepend [_] (List.mem_cons_of_mem _) (fun results yields => ?_) (fun _ => rfl)
        exact yields.cons (.inr rfl) ⟨date, part, .error (.solve error), parseTime, 0⟩
          ⟨0, 0, (Int.sub_self _).symm⟩ _
      · exact .inl ⟨rfl, .head _⟩
      · simp only [StateT.run_bind, now_run, pure_bind]
        have twice : watch.readings (watch.tick (watch.tick state)) = watch.readings state + 2 := by
          rw [watch.readings_tick, watch.readings_tick]
        have ends := ih next none (watch.tick (watch.tick state))
        rw [twice, watch.log_tick, watch.log_tick, Nat.add_assoc] at ends
        refine ends.prepend [_] (List.mem_cons_of_mem _) (fun results yields => ?_) (fun _ => rfl)
        exact yields.cons (.inr rfl) ⟨date, part, .ok answer, parseTime, _⟩ ⟨_, _, rfl⟩ _

/-- What a day comes to. -/
theorem runItem_ends (item : WorkItem) (state : σ) :
    watch.Ends (¬ item.Faultless registry (store.inputOf files item.date))
      (Yields clock (item.untimed registry (store.inputOf files item.date)) (item.parts ≠ [])
        ((item.session? registry (store.inputOf files item.date)).map fun _ =>
          clock (watch.readings state + 1) - clock (watch.readings state)).toList)
      (watch.readings state + item.readings registry (store.inputOf files item.date))
      (fun _ => watch.log state)
      ((runItem watch.surroundings registry store item).run state).run := by
  have read : store.read watch.surroundings.fileAt item.date =
      pure (store.inputOf files item.date) := by
    rw [show watch.surroundings.fileAt = fun path => pure (files path) from funext watch.fileAt_eq]
    exact readFirst_pure files item.date [] (store.candidates item.date)
  simp only [runItem, read, pure_bind]
  cases input : store.inputOf files item.date with
  | error error => exact .inr ⟨_, rfl, yields_failed clock item.date _ item.parts, rfl, rfl⟩
  | ok text =>
    simp only [StateT.run_bind, now_run, pure_bind]
    rcases opened : registry.create item.date text with (error | _) | session
    · have closed : item.session? registry (.ok text) = none := by
        simp [WorkItem.session?, Except.toOption, opened]
      have once : item.readings registry (.ok text) = 1 := by simp [WorkItem.readings, closed]
      simp only [WorkItem.untimed, opened, closed, once]
      exact .inr ⟨_, rfl, yields_failed clock item.date _ item.parts, watch.readings_tick state,
        watch.log_tick state⟩
    · exact .inl ⟨rfl, fun faultless => (faultless text rfl).1 opened⟩
    · have held : item.session? registry (.ok text) = some session := by
        simp [WorkItem.session?, Except.toOption, opened]
      have more : item.readings registry (.ok text) = 2 + readingsOf (session.solveAll item.parts) := by
        simp [WorkItem.readings, held]
      simp only [WorkItem.untimed, opened, held, more, StateT.run_bind, now_run, pure_bind]
      have ends := watch.solveParts_ends item.date session
        (some (clock (watch.readings state + 1) - clock (watch.readings state))) item.parts
        (watch.tick (watch.tick state))
      rw [watch.readings_tick, watch.readings_tick, watch.log_tick, watch.log_tick, Nat.add_assoc _ 1 1,
        Nat.add_assoc] at ends
      rw [watch.readings_tick]
      refine ends.imp (fun fault faultless => (faultless text rfl).2 session opened fault) ?_
      intro results yields
      exact ⟨yields.untimed, fun filled => yields.parses (.inl filled), yields.solves⟩

/-- Handing over results one after the other. -/
theorem forM_onResult (results : List PartResult) (state : σ) : ∃ after,
    (results.forM watch.onResult).run state = pure ((), after) ∧
      watch.readings after = watch.readings state ∧
      watch.log after = watch.log state ++ results.map watch.entry := by
  induction results generalizing state with
  | nil => exact ⟨state, rfl, rfl, (List.append_nil _).symm⟩
  | cons result results ih =>
    obtain ⟨after, ran, read, logged⟩ := ih (watch.note result state)
    have noted : (watch.onResult result).run state = pure ((), watch.note result state) := by
      rw [watch.onResult_eq]
      rfl
    refine ⟨after, ?_, read.trans (watch.readings_note result state), ?_⟩
    · rw [List.forM, StateT.run_bind, noted, pure_bind, ran]
    · rw [logged, watch.log_note, List.append_assoc]
      rfl

/-- What a run comes to. -/
theorem execute_ends (items : List WorkItem) (state : σ) :
    watch.Ends (∃ item ∈ items, ¬ item.Faultless registry (store.inputOf files item.date))
      (Yields clock (items.flatMap fun item => item.untimed registry (store.inputOf files item.date))
        (∀ item ∈ items, item.parts ≠ [])
        (parseTimes clock registry (store.inputOf files) (watch.readings state) items))
      (watch.readings state +
        (items.map fun item => item.readings registry (store.inputOf files item.date)).sum)
      (fun results => watch.log state ++ results.map watch.entry)
      ((execute watch.surroundings registry store watch.onResult items).run state).run := by
  induction items generalizing state with
  | nil =>
    exact .inr ⟨[], rfl, ⟨rfl, fun _ => rfl, List.forall_mem_nil _⟩, rfl, (List.append_nil _).symm⟩
  | cons item items ih =>
    simp only [execute, StateT.run_bind]
    have day := watch.runItem_ends registry store item state
    rcases ran : ((runItem watch.surroundings registry store item).run state).run with ⟨found, middle⟩
    have ran' : (runItem watch.surroundings registry store item).run state = pure (found, middle) := ran
    rw [ran', pure_bind]
    rw [ran] at day
    obtain ⟨stopped, fault⟩ | ⟨results, ended, yields, read, kept⟩ := day
    · obtain rfl : found = none := stopped
      exact .inl ⟨rfl, item, .head _, fault⟩
    · obtain rfl : found = some results := ended
      obtain ⟨after, handed, steady, logged⟩ := watch.forM_onResult results middle
      simp only [StateT.run_bind, handed, pure_bind]
      have ends := ih after
      rw [steady, logged, show watch.readings middle = _ from read,
        show watch.log middle = _ from kept, Nat.add_assoc] at ends
      refine ends.prepend results ?_ (fun others more => ?_) (fun others => ?_)
      · exact fun ⟨other, listed, fault⟩ => ⟨other, .tail _ listed, fault⟩
      · exact yields.append more (fun filled => filled item (.head _))
          (fun filled other listed => filled other (.tail _ listed))
      · rw [List.map_append, List.append_assoc]

end Watch

end PuzzleCalendar.CommandLine
