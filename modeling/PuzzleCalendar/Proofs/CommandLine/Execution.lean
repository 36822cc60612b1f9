import PuzzleCalendar.Proofs.CommandLine.Watching
import PuzzleCalendar.Proofs.Registry.RegistrationOrder

/-! # Executions are complete, ordered and isolated

A run is watched with files that do not change, a clock with any readings and a log of the results that
are handed over. Apart from times, its results are those of each day by itself, one day after the other.
So no day can change, drop or move a result of another day.
-/

namespace PuzzleCalendar.CommandLine

/-- How often the clock was read, and the results that were handed over. -/
structure Trace where
  readings : Nat
  seen : List PartResult

/-- Files that do not change, and a clock with its successive readings. -/
def recorded (files : Path → Except FileError Text) (clock : Nat → Duration) :
    Surroundings (StateM Trace) where
  fileAt path := pure (files path)
  now := modifyGet fun trace => (clock trace.readings, { trace with readings := trace.readings + 1 })

/-- Logs a result. -/
def handOver (result : PartResult) : StateM Trace Unit :=
  modify fun trace => { trace with seen := trace.seen ++ [result] }

/-- The watch that logs results. -/
def recording (files : Path → Except FileError Text) (clock : Nat → Duration) :
    Watch files clock Trace PartResult where
  surroundings := recorded files clock
  onResult := handOver
  readings := Trace.readings
  log := Trace.seen
  entry := id
  tick trace := { trace with readings := trace.readings + 1 }
  note result trace := { trace with seen := trace.seen ++ [result] }
  fileAt_eq _ := rfl
  now_eq := rfl
  onResult_eq _ := rfl
  readings_tick _ := rfl
  log_tick _ := rfl
  readings_note _ _ := rfl
  log_note _ _ := rfl

/-- What a run comes to, the clock apart. -/
theorem execute_ends (files : Path → Except FileError Text) (clock : Nat → Duration) (registry : Registry)
    (store : InputStore) (items : List WorkItem) (trace : Trace) :
    let after := ((execute (recorded files clock) registry store handOver items).run trace).run
    after.1 = none ∧ (∃ item ∈ items, ¬ item.Faultless registry (store.inputOf files item.date)) ∨
      ∃ results, after.1 = some results ∧ after.2.seen = trace.seen ++ results ∧
        results.map PartResult.untimed =
          items.flatMap fun item => item.untimed registry (store.inputOf files item.date) := by
  obtain stopped | ⟨results, ended, yields, -, logged⟩ :=
    (recording files clock).execute_ends registry store items trace
  · exact .inl stopped
  · have seen : trace.seen ++ results.map id = trace.seen ++ results := by rw [List.map_id]
    exact .inr ⟨results, ended, logged.trans seen, yields.untimed⟩

/-- A watched run of the work that a configuration selects. -/
def watched (files : Path → Except FileError Text) (clock : Nat → Duration) (registry : Registry)
    (configuration : Configuration) (store : InputStore) (trace : Trace) :
    Option (List PartResult) × Trace :=
  ((execute (recorded files clock) registry store handOver (workItems registry configuration)).run
    trace).run

/-- A configuration selects a part of an entry. A wanted part is any up to the last one. -/
structure Selects (configuration : Configuration) (entry : Entry) (part : Nat) : Prop where
  year : ∀ year ∈ configuration.year, entry.date.year = year
  day : ∀ day ∈ configuration.day, entry.date.day = day
  part_le : part ≤ entry.parts
  wanted : ∀ wanted ∈ configuration.part, part = wanted
  one_le : configuration.part = none → 1 ≤ part

section Selection

variable {registry : Registry} {configuration : Configuration} {item : WorkItem} {entry : Entry}
  {date : Date} {part : Nat}

theorem mem_parts : part ∈ item.parts ↔ item.first ≤ part ∧ part ≤ item.last := by
  rw [WorkItem.parts, List.mem_range'_1]
  omega

theorem mem_parts_selectParts {wanted : Option Nat} {parts : Nat} :
    part ∈ (selectParts wanted date parts).parts ↔
      part ≤ parts ∧ (∀ number ∈ wanted, part = number) ∧ (wanted = none → 1 ≤ part) := by
  rw [mem_parts]
  cases wanted with
  | none => simp [selectParts, and_comm]
  | some number =>
    simp only [selectParts, Option.mem_some_iff, forall_eq', reduceCtorEq, false_implies, and_true]
    split
    · dsimp only
      omega
    · dsimp only
      omega

theorem date_selectParts {wanted : Option Nat} {parts : Nat} :
    (selectParts wanted date parts).date = date := by
  unfold selectParts
  split
  · rfl
  · split <;> rfl

theorem all_eq_iff {wanted : Option Nat} {number : Nat} :
    wanted.all (number = ·) = true ↔ ∀ value ∈ wanted, number = value := by
  cases wanted with
  | none => simp
  | some value => simp

theorem mem_workItems : item ∈ workItems registry configuration ↔
    (∃ entry ∈ registry.entries, ((∀ year ∈ configuration.year, entry.date.year = year) ∧
      ∀ day ∈ configuration.day, entry.date.day = day) ∧
      selectParts configuration.part entry.date entry.parts = item) ∧ item.first ≤ item.last := by
  simp [workItems, List.mem_filter, List.mem_map, and_assoc, all_eq_iff]

/-- The work is what is selected. -/
theorem exists_workItem_iff :
    (∃ item ∈ workItems registry configuration, item.date = date ∧ part ∈ item.parts) ↔
      ∃ entry ∈ registry.entries, entry.date = date ∧ Selects configuration entry part := by
  constructor
  · rintro ⟨item, listed, rfl, inside⟩
    obtain ⟨⟨entry, registered, ⟨year, day⟩, rfl⟩, -⟩ := mem_workItems.mp listed
    obtain ⟨le, wanted, one_le⟩ := mem_parts_selectParts.mp inside
    exact ⟨entry, registered, date_selectParts.symm, year, day, le, wanted, one_le⟩
  · rintro ⟨entry, registered, rfl, year, day, le, wanted, one_le⟩
    have inside : part ∈ (selectParts configuration.part entry.date entry.parts).parts :=
      mem_parts_selectParts.mpr ⟨le, wanted, one_le⟩
    obtain ⟨after_first, before_last⟩ := mem_parts.mp inside
    have listed := mem_workItems.mpr
      ⟨⟨entry, registered, ⟨year, day⟩, rfl⟩, after_first.trans before_last⟩
    exact ⟨_, listed, date_selectParts, inside⟩

/-- The work comes in the order of the calendar. -/
theorem pairwise_workItems (registry : Registry) (configuration : Configuration) :
    (workItems registry configuration).Pairwise fun first second =>
      first.date.Before second.date := by
  refine List.Pairwise.filter _ (List.pairwise_map.mpr ?_)
  simp only [date_selectParts]
  exact (Registry.pairwise_entries registry).filter _

/-- No day has its work cut in two. -/
theorem filter_workItems (date : Date) :
    (workItems registry configuration).filter (·.date = date) = [] ∨
      ∃ item ∈ workItems registry configuration, item.date = date ∧
        (workItems registry configuration).filter (·.date = date) = [item] := by
  have ordered := (pairwise_workItems registry configuration).filter (·.date = date)
  match found : (workItems registry configuration).filter (·.date = date) with
  | [] => exact .inl found
  | [item] =>
    obtain ⟨listed, same⟩ := List.mem_filter.mp (found ▸ List.mem_singleton_self item)
    exact .inr ⟨item, listed, of_decide_eq_true same, found⟩
  | first :: second :: rest =>
    have at_date (item : WorkItem) (listed : item ∈ first :: second :: rest) : item.date = date := by
      rw [← found] at listed
      exact of_decide_eq_true (List.mem_filter.mp listed).2
    rw [found] at ordered
    have before := (List.pairwise_cons.mp ordered).1 second (.head _)
    rw [at_date first (.head _), at_date second (.tail _ (.head _))] at before
    simp [Date.Before] at before

end Selection

section Untimed

variable {registry : Registry} {item : WorkItem} {input : Except InputError Text} {date : Date}
  {session : Session}

theorem length_solveAll (session : Session) (parts : List Nat) :
    (session.solveAll parts).length = parts.length := by
  induction parts generalizing session with
  | nil => rfl
  | cons part parts ih => rw [Session.solveAll, List.length_cons, List.length_cons, ih]

theorem part_untimedParts (session : Session) (date : Date) (parts : List Nat) :
    (untimedParts session date parts).map Untimed.part = parts := by
  rw [untimedParts, List.map_map]
  exact List.map_fst_zip (length_solveAll session parts).ge

theorem answer_untimedParts (session : Session) (date : Date) (parts : List Nat) :
    (untimedParts session date parts).map Untimed.answer = (session.solveAll parts).map answer? := by
  have zipped := List.map_snd_zip (length_solveAll session parts).le
  have answered := congrArg (List.map answer?) zipped
  rw [List.map_map] at answered
  rw [untimedParts, List.map_map]
  exact answered

/-- Every selected part of a day has one result. -/
theorem parts_untimed (item : WorkItem) (registry : Registry) (input : Except InputError Text) :
    (item.untimed registry input).map (fun result => (result.date, result.part)) =
      item.parts.map fun part => (item.date, part) := by
  unfold WorkItem.untimed
  split
  · simp
  · split
    · simp
    · simp
    · rename_i session _
      have paired := congrArg (List.map fun part => (item.date, part))
        (part_untimedParts session item.date item.parts)
      rw [untimedParts, List.map_map, List.map_map] at paired
      rw [untimedParts, List.map_map]
      exact paired

@[simp] theorem length_untimed (item : WorkItem) (registry : Registry)
    (input : Except InputError Text) :
    (item.untimed registry input).length = item.parts.length := by
  have paired := congrArg List.length (parts_untimed item registry input)
  rwa [List.length_map, List.length_map] at paired

theorem mem_untimed {result : Untimed} (listed : result ∈ item.untimed registry input) :
    result.date = item.date ∧ result.part ∈ item.parts := by
  have paired := List.mem_map_of_mem (f := fun result : Untimed => (result.date, result.part)) listed
  rw [parts_untimed] at paired
  obtain ⟨part, inside, same⟩ := List.mem_map.mp paired
  obtain ⟨date, rfl⟩ := Prod.mk.inj same
  exact ⟨date.symm, inside⟩

/-- What comes of the parts that a configuration selects, each day by itself. -/
def selected (registry : Registry) (configuration : Configuration)
    (inputOf : Date → Except InputError Text) : List Untimed :=
  (workItems registry configuration).flatMap fun item => item.untimed registry (inputOf item.date)

/-- The selected parts come by day and by part. -/
theorem pairwise_selected (registry : Registry) (configuration : Configuration)
    (inputOf : Date → Except InputError Text) :
    (selected registry configuration inputOf).Pairwise fun first second =>
      first.date.Before second.date ∨ first.date = second.date ∧ first.part < second.part := by
  rw [selected, List.pairwise_flatMap]
  constructor
  · intro item _
    have parts : (item.parts.map fun part => (item.date, part)).Pairwise fun first second =>
        first.1.Before second.1 ∨ first.1 = second.1 ∧ first.2 < second.2 :=
      List.pairwise_map.mpr ((List.pairwise_lt_range' 1).imp fun less => .inr ⟨rfl, less⟩)
    rw [← parts_untimed item registry (inputOf item.date)] at parts
    exact List.pairwise_map.mp parts
  · refine (pairwise_workItems registry configuration).imp fun before first early second late => ?_
    left
    rwa [(mem_untimed early).1, (mem_untimed late).1]

/-- The selected parts are those of the selected days that are registered. -/
theorem exists_selected_iff {registry : Registry} {configuration : Configuration}
    {inputOf : Date → Except InputError Text} {date : Date} {part : Nat} :
    (∃ result ∈ selected registry configuration inputOf, result.date = date ∧ result.part = part) ↔
      ∃ entry ∈ registry.entries, entry.date = date ∧ Selects configuration entry part := by
  rw [← exists_workItem_iff]
  constructor
  · rintro ⟨result, listed, rfl, rfl⟩
    obtain ⟨item, work, inside⟩ := List.mem_flatMap.mp listed
    exact ⟨item, work, (mem_untimed inside).1.symm, (mem_untimed inside).2⟩
  · rintro ⟨item, work, rfl, inside⟩
    have paired := List.mem_map_of_mem (f := fun part => (item.date, part)) inside
    rw [← parts_untimed item registry (inputOf item.date)] at paired
    obtain ⟨result, there, slot⟩ := List.mem_map.mp paired
    obtain ⟨date, part⟩ := Prod.mk.inj slot
    exact ⟨result, List.mem_flatMap.mpr ⟨item, work, there⟩, date, part⟩

end Untimed

/-- What the results of a run say. -/
structure Accounts (registry : Registry) (configuration : Configuration)
    (inputOf : Date → Except InputError Text) (results : List PartResult) : Prop where
  /-- They come by day and by part, and no part of a day comes twice. -/
  ordered : results.Pairwise fun first second => first.date.Before second.date ∨
    first.date = second.date ∧ first.part < second.part
  /-- They are about the selected parts of the selected days that are registered. -/
  complete (date : Date) (part : Nat) :
    (∃ result ∈ results, result.date = date ∧ result.part = part) ↔
      ∃ entry ∈ registry.entries, entry.date = date ∧ Selects configuration entry part
  /-- A day whose input cannot be read fails in all its parts. -/
  unread : ∀ result ∈ results, ∀ error, inputOf result.date = .error error →
    result.answer = .error (.input error.message)
  /-- A day whose input is refused fails in all its parts. -/
  refused : ∀ result ∈ results, ∀ entry ∈ registry.entries, entry.date = result.date →
    ∀ text error, inputOf result.date = .ok text → entry.create text = Outcome.report error →
      result.answer = .error (.setup (LookupError.parse error).message)
  /-- Any other day has the answers of its parts, solved one after the other on one session. -/
  solved : ∀ entry ∈ registry.entries, ∀ text session, inputOf entry.date = .ok text →
    entry.create text = .ok session →
      (results.filter (·.date = entry.date)).map (fun result => some result.answer) =
        (session.solveAll ((results.filter (·.date = entry.date)).map PartResult.part)).map answer?

section Results

variable {registry : Registry} {configuration : Configuration} {items : List WorkItem}
  {inputOf : Date → Except InputError Text} {results : List PartResult}

/-- The results of some days are the results of the work for these days. -/
theorem filter_untimed (same : results.map PartResult.untimed =
      items.flatMap fun item => item.untimed registry (inputOf item.date)) (keep : Date → Bool) :
    (results.filter (keep ·.date)).map PartResult.untimed =
      (items.filter (keep ·.date)).flatMap fun item => item.untimed registry (inputOf item.date) := by
  have kept : (results.filter (keep ·.date)).map PartResult.untimed =
      (results.map PartResult.untimed).filter (keep ·.date) := by
    rw [List.filter_map]
    rfl
  rw [kept, same, List.filter_flatMap]
  clear same kept
  induction items with
  | nil => rfl
  | cons item items ih =>
    rw [List.flatMap_cons, ih, List.filter_cons]
    cases keeps : keep item.date with
    | true =>
      rw [List.filter_eq_self.mpr, if_pos rfl, List.flatMap_cons]
      intro result listed
      rw [(mem_untimed listed).1, keeps]
    | false =>
      rw [List.filter_eq_nil_iff.mpr, if_neg Bool.false_ne_true, List.nil_append]
      intro result listed
      rw [(mem_untimed listed).1, keeps]
      exact Bool.false_ne_true

theorem exists_item {result : PartResult} (same : results.map PartResult.untimed =
      items.flatMap fun item => item.untimed registry (inputOf item.date)) (listed : result ∈ results) :
    ∃ item ∈ items, item.date = result.date ∧
      result.untimed ∈ item.untimed registry (inputOf result.date) := by
  have untimed := List.mem_map_of_mem (f := PartResult.untimed) listed
  rw [same] at untimed
  obtain ⟨item, work, inside⟩ := List.mem_flatMap.mp untimed
  have date : result.date = item.date := (mem_untimed inside).1
  exact ⟨item, work, date.symm, date ▸ inside⟩

/-- A registry opens what is registered. -/
theorem create_of_mem {entry : Entry} (registered : entry ∈ registry.entries) (text : Text) :
    registry.create entry.date text = (entry.create text).mapReport LookupError.parse := by
  obtain ⟨place, placed, held⟩ := Option.bind_eq_some_iff.mp (Registry.mem_entries.mp registered)
  simp only [Registry.create, placed, held]

/-- The results of the selected work, each day by itself, account for the selection. -/
theorem accounts (same : results.map PartResult.untimed =
      (workItems registry configuration).flatMap fun item => item.untimed registry (inputOf item.date)) :
    Accounts registry configuration inputOf results where
  ordered := by
    have ordered := pairwise_selected registry configuration inputOf
    rw [selected, ← same] at ordered
    exact List.pairwise_map.mp ordered
  complete date part := by
    rw [← exists_selected_iff, selected, ← same]
    simp [PartResult.untimed]
  unread result listed error unreadable := by
    obtain ⟨item, work, date, inside⟩ := exists_item same listed
    rw [unreadable, WorkItem.untimed] at inside
    obtain ⟨part, -, equal⟩ := List.mem_map.mp inside
    exact (Option.some_inj.mp (congrArg Untimed.answer equal)).symm
  refused result listed entry registered date text error readable report := by
    obtain ⟨item, work, date', inside⟩ := exists_item same listed
    have refused : registry.create item.date text = Outcome.report (.parse error) := by
      rw [date', ← date, create_of_mem registered, report]
      rfl
    rw [readable, WorkItem.untimed, refused] at inside
    obtain ⟨part, -, equal⟩ := List.mem_map.mp inside
    exact (Option.some_inj.mp (congrArg Untimed.answer equal)).symm
  solved entry registered text session readable opened := by
    have kept := filter_untimed same (· = entry.date)
    obtain none | ⟨item, work, date, only⟩ := filter_workItems entry.date
    · rw [none] at kept
      rw [List.map_eq_nil_iff.mp kept]
      rfl
    · have created : registry.create item.date text = .ok session := by
        rw [date, create_of_mem registered, opened]
        rfl
      rw [only, List.flatMap_singleton, date, readable] at kept
      simp only [WorkItem.untimed, created] at kept
      have parts := (congrArg (List.map Untimed.part) kept).trans (part_untimedParts _ _ _)
      have answers := (congrArg (List.map Untimed.answer) kept).trans (answer_untimedParts _ _ _)
      rw [List.map_map] at parts answers
      rw [show (results.filter (·.date = entry.date)).map PartResult.part = item.parts from parts]
      exact answers

end Results

/-- Without a fault, a run of any selection has results and hands over just these, in their order. They
account for the selection, and the results of other days do not depend on the input of a day. -/
theorem watched_accounts (registry : Registry) (configuration : Configuration) (store : InputStore)
    (files : Path → Except FileError Text) (clock : Nat → Duration) (trace : Trace)
    (faultless : ∀ item ∈ workItems registry configuration,
      item.Faultless registry (store.inputOf files item.date)) :
    ∃ results, (watched files clock registry configuration store trace).1 = some results ∧
      (watched files clock registry configuration store trace).2.seen = trace.seen ++ results ∧
      Accounts registry configuration (store.inputOf files) results ∧
      ∀ (store' : InputStore) (files' : Path → Except FileError Text) (clock' : Nat → Duration)
        (trace' : Trace) (day : Date) (results' : List PartResult),
        (∀ date, date ≠ day → store'.inputOf files' date = store.inputOf files date) →
        (watched files' clock' registry configuration store' trace').1 = some results' →
        (results'.filter (·.date ≠ day)).map PartResult.untimed =
          (results.filter (·.date ≠ day)).map PartResult.untimed := by
  have ends (files : Path → Except FileError Text) (clock : Nat → Duration) (store : InputStore) :=
    execute_ends files clock registry store (workItems registry configuration)
  obtain ⟨-, item, work, fault⟩ | ⟨results, ended, logged, same⟩ := ends files clock store trace
  · exact absurd (faultless item work) fault
  · refine ⟨results, ended, logged, accounts same, ?_⟩
    intro store' files' clock' trace' day results' others ended'
    obtain ⟨stopped, -⟩ | ⟨found, ended'', -, same'⟩ := ends files' clock' store' trace'
    · exact absurd (stopped.symm.trans ended') (by simp)
    · obtain rfl : found = results' := Option.some_inj.mp (ended''.symm.trans ended')
      rw [filter_untimed same' (· ≠ day), filter_untimed same (· ≠ day)]
      refine List.flatMap_congr fun item kept => ?_
      rw [others item.date (of_decide_eq_true (List.mem_filter.mp kept).2)]

/-- Two days read the same two lines, and the second part of the later day has its result. -/
theorem watched_two_days :
    ∃ registry results,
      Registry.empty.registerAll [Catalogue.depths.entry, Catalogue.calories.entry] = .ok registry ∧
      (watched (fun _ => .ok ['1', '\n', '2']) (fun reading => reading) registry
        ⟨none, none, none, [], [], some ['f'], false, ""⟩ ⟨[], some ['f']⟩ ⟨0, []⟩).1 = some results ∧
      ∃ result ∈ results, result.date = ⟨2022, 1⟩ ∧ result.part = 2 := by
  obtain ⟨registry, registered⟩ := Registry.exists_registerAll_iff.mpr
    (⟨by decide, fun _ _ => Registry.contains_eq_false_iff.mpr (Registry.factory?_empty _), by decide⟩ :
      Registry.empty.Takes [Catalogue.depths.entry, Catalogue.calories.entry])
  have entries (entry : Entry) : entry ∈ registry.entries ↔
      entry = Catalogue.depths.entry ∨ entry = Catalogue.calories.entry := by
    simp [(Registry.perm_of_registerAll registered).mem_iff]
  obtain ⟨results, ended, -, ⟨-, complete, -, -, -⟩, -⟩ := watched_accounts registry
    ⟨none, none, none, [], [], some ['f'], false, ""⟩ ⟨[], some ['f']⟩ (fun _ => .ok ['1', '\n', '2'])
    (fun reading => reading) ⟨0, []⟩ (by
      intro item work text readable
      obtain rfl : ['1', '\n', '2'] = text := Except.ok.inj readable
      obtain ⟨⟨entry, listed, -, rfl⟩, -⟩ := mem_workItems.mp work
      rw [date_selectParts, create_of_mem listed]
      rcases (entries entry).mp listed with rfl | rfl
      · refine ⟨nofun, fun session opened => ?_⟩
        obtain rfl := Except.ok.inj opened
        decide
      · refine ⟨nofun, fun session opened => ?_⟩
        obtain rfl := Except.ok.inj opened
        decide +kernel)
  refine ⟨registry, results, registered, ended, (complete _ _).mpr ⟨_, (entries _).mpr (.inr rfl), rfl, ?_⟩⟩
  exact ⟨by simp, by simp, by decide, by simp, by simp⟩

end PuzzleCalendar.CommandLine
