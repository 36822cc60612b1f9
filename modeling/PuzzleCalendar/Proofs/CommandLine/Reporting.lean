import Mathlib.Data.List.Permutation
import PuzzleCalendar.CommandLine.Program
import PuzzleCalendar.Proofs.CommandLine.Execution

/-! # Endings and reports agree

A run is watched with files that do not change, a clock and a transcript of the printed lines. How it
ends, the counts that it reports, both outputs and the times of its summary come from the same results,
one for each selected part.
-/

namespace PuzzleCalendar

namespace Duration

theorem held?_eq_some {duration : Int} (low : 0 ≤ duration + longest) (high : duration ≤ longest) :
    held? duration = some duration :=
  if_pos ⟨Int.le_of_sub_nonneg (by rwa [Int.sub_neg]), high⟩

/-- Adding short durations stays within bounds while there is room for all of them. -/
theorem foldlM_held? {durations : List Int} {limit total room : Int}
    (short : ∀ duration ∈ durations, -limit ≤ duration ∧ duration ≤ limit)
    (enough : (durations.length : Int) * limit ≤ room)
    (low : room ≤ total + longest) (high : total ≤ longest - room) :
    durations.foldlM (fun total duration => held? (total + duration)) total =
      some (total + durations.sum) := by
  induction durations generalizing total room with
  | nil => simp
  | cons duration durations ih =>
    obtain ⟨⟨above, below⟩, others⟩ := List.forall_mem_cons.mp short
    have nonnegative : 0 ≤ (durations.length : Int) * limit := Int.mul_nonneg (by omega) (by omega)
    have longer : ((duration :: durations).length : Int) * limit = durations.length * limit + limit := by
      rw [List.length_cons, Int.natCast_add, Int.add_mul, Int.natCast_one, Int.one_mul]
    rw [longer] at enough
    have held : held? (total + duration) = some (total + duration) :=
      held?_eq_some (by omega) (by omega)
    have enough : (durations.length : Int) * limit ≤ room - limit := by omega
    rw [List.foldlM_cons, held, Option.bind_eq_bind, Option.bind_some,
      ih others enough (by omega) (by omega), List.sum_cons, Int.add_assoc]

/-- Short durations have a sum. -/
theorem sum?_eq {durations : List Int} {limit : Int}
    (short : ∀ duration ∈ durations, -limit ≤ duration ∧ duration ≤ limit)
    (few : (durations.length : Int) * limit ≤ longest) : sum? durations = some durations.sum := by
  rw [sum?, foldlM_held? short few (by simp) (by simp), Int.zero_add]

end Duration

namespace CommandLine

/-- The text of a line of the output. -/
def ReportLine.output? : ReportLine → Option String
  | .output text => some text
  | .error _ => none

/-- The text of a line of the error output. -/
def ReportLine.error? : ReportLine → Option String
  | .output _ => none
  | .error text => some text

/-- The line that a quiet report has for a part without an answer. -/
def PartResult.failure? (result : PartResult) : Option String :=
  match result.answer with
  | .ok _ => none
  | .error error => some s!"Error: {error.message}"

section Lines

theorem output?_quietLine (result : PartResult) :
    result.quietLine.output? = result.answer.toOption := by
  rcases result with ⟨_, _, _ | _, _, _⟩ <;> rfl

theorem error?_quietLine (result : PartResult) : result.quietLine.error? = result.failure? := by
  rcases result with ⟨_, _, _ | _, _, _⟩ <;> rfl

end Lines

/-- How often the clock was read, and the lines that were printed. -/
structure Transcript where
  readings : Nat
  printed : List ReportLine

/-- Files that do not change, and a clock with its successive readings. -/
def transcribed (files : Path → Except FileError Text) (clock : Nat → Duration) :
    Surroundings (StateM Transcript) where
  fileAt path := pure (files path)
  now := modifyGet fun transcript =>
    (clock transcript.readings, { transcript with readings := transcript.readings + 1 })

/-- Prints a line. -/
def printTo (line : ReportLine) : StateM Transcript Unit :=
  modify fun transcript => { transcript with printed := transcript.printed ++ [line] }

/-- The watch that prints results. -/
def transcribing (files : Path → Except FileError Text) (clock : Nat → Duration) (quiet : Bool) :
    Watch files clock Transcript ReportLine where
  surroundings := transcribed files clock
  onResult result := printTo (result.line quiet)
  readings := Transcript.readings
  log := Transcript.printed
  entry := PartResult.line quiet
  tick transcript := { transcript with readings := transcript.readings + 1 }
  note result transcript := { transcript with printed := transcript.printed ++ [result.line quiet] }
  fileAt_eq _ := rfl
  now_eq := rfl
  onResult_eq _ := rfl
  readings_tick _ := rfl
  log_tick _ := rfl
  readings_note _ _ := rfl
  log_note _ _ := rfl

/-- A run of a configuration on a registry, with the lines that report how it ends. -/
def concluded (files : Path → Except FileError Text) (clock : Nat → Duration)
    (configuration : Configuration) (registry : Registry) : StateM Transcript Ending := do
  let ending ← runRegistry (transcribed files clock) printTo configuration registry
  ending.lines.forM printTo
  pure ending

/-- A run of the program is a run of its configuration on its registry. -/
theorem run_eq_concluded {files : Path → Except FileError Text} {clock : Nat → Duration}
    {environment : Environment} {plugins : List Plugin} {words : List Text} {arguments : Arguments}
    {configuration : Configuration} {registry : Registry}
    (read : Arguments.read words = .ok arguments)
    (resolved : Configuration.resolve environment.home environment.inputDir arguments = .ok configuration)
    (registered : registryFor plugins configuration.tags = .ok registry) :
    run (transcribed files clock) printTo environment plugins words =
      concluded files clock configuration registry := by
  simp only [run, concluded, read, resolved, runConfiguration, registered]

/-- What a run prints before it solves anything. -/
def Configuration.heading (configuration : Configuration) (items : List WorkItem) : List ReportLine :=
  if configuration.quiet then [] else [.output s!"Running {items.length} solver(s)..."]

/-- Where a run looks for inputs. -/
def Configuration.store (configuration : Configuration) : InputStore :=
  ⟨configuration.inputDir, configuration.inputFile⟩

/-- The run of the selected work, after the clock was read for the first time. -/
def executed (files : Path → Except FileError Text) (clock : Nat → Duration)
    (configuration : Configuration) (registry : Registry) : Option (List PartResult) × Transcript :=
  ((execute (transcribed files clock) registry configuration.store
    (fun result => printTo (result.line configuration.quiet)) (workItems registry configuration)).run
      ⟨1, configuration.heading (workItems registry configuration)⟩).run

/-- What a run says about the results that it has. -/
structure Reports (registry : Registry) (configuration : Configuration)
    (inputOf : Date → Except InputError Text) (clock : Nat → Duration) (ending : Ending)
    (printed : List ReportLine) (results : List PartResult) (summary : Summary) : Prop where
  /-- The results are those of the selected parts, in the order of the calendar. -/
  accounts : Accounts registry configuration inputOf results
  /-- It succeeds when all of them are answers. -/
  succeeds : ending.exitCode = 0 ↔ ∀ result ∈ results, result.isSolved
  /-- Otherwise it counts the failures. -/
  fails : ending.exitCode ≠ 0 →
    ending = .failure (.failures (results.countP (!·.isSolved)) results.length)
  /-- They have a summary. -/
  summarized : Summary.ofResults? results = some summary
  /-- Every day with a session is parsed once. -/
  parseTime : summary.parseTime =
    (parseTimes clock registry inputOf 1 (workItems registry configuration)).sum
  /-- Every result is printed once, between the heading and the summary of a full report. -/
  prints : workItems registry configuration ≠ [] → ∃ elapsed, printed =
    configuration.heading (workItems registry configuration) ++
      results.map (PartResult.line configuration.quiet) ++
      summary.lines configuration.quiet elapsed ++ ending.lines
  /-- A quiet run has the answers as its output. -/
  output : workItems registry configuration ≠ [] → configuration.quiet = true →
    printed.filterMap ReportLine.output? = results.filterMap (·.answer.toOption)
  /-- The errors of a quiet run are those of the parts, and the one that it ends with. -/
  error : workItems registry configuration ≠ [] → configuration.quiet = true →
    printed.filterMap ReportLine.error? =
      results.filterMap PartResult.failure? ++ ending.lines.filterMap ReportLine.error?

section Summaries

variable {clock : Nat → Duration} {registry : Registry} {inputOf : Date → Except InputError Text}
  {reading : Nat} {items : List WorkItem} {expected : List Untimed} {filled : Prop}
  {results : List PartResult} {limit : Int}

/-- The time of a parse is one between readings of the clock. -/
theorem mem_parseTimes {time : Duration}
    (listed : time ∈ parseTimes clock registry inputOf reading items) :
    ∃ first second, time = clock second - clock first := by
  induction items generalizing reading with
  | nil => exact absurd listed List.not_mem_nil
  | cons item items ih =>
    rcases List.mem_append.mp listed with parsed | later
    · obtain ⟨session, -, rfl⟩ := Option.map_eq_some_iff.mp (Option.mem_toList.mp parsed)
      exact ⟨reading, reading + 1, rfl⟩
    · exact ih later

/-- Results have a summary when the clock does not run too far. -/
theorem Yields.ofResults?
    (yields : Yields clock expected filled (parseTimes clock registry inputOf reading items) results)
    (holds : filled) (short : ∀ first second, clock second - clock first ≤ limit)
    (few : (expected.length : Int) * limit ≤ Duration.longest) :
    ∃ summary, Summary.ofResults? results = some summary ∧
      summary.failed = results.countP (!·.isSolved) ∧
      summary.parseTime = (parseTimes clock registry inputOf reading items).sum := by
  have positive : 0 ≤ limit := by simpa using short 0 0
  have sum {durations : List Duration} (size : durations.length ≤ results.length)
      (times : ∀ time ∈ durations, ∃ first second, time = clock second - clock first) :
      Duration.sum? durations = some durations.sum := by
    have fits : (durations.length : Int) * limit ≤ Duration.longest := by
      refine le_trans ?_ few
      rw [← yields.untimed, List.length_map]
      exact Int.mul_le_mul_of_nonneg_right (Int.ofNat_le.mpr size) positive
    refine Duration.sum?_eq (fun time listed => ?_) fits
    obtain ⟨first, second, rfl⟩ := times time listed
    have behind := Int.neg_le_neg (short second first)
    rw [Int.neg_sub] at behind
    exact ⟨behind, short first second⟩
  have parses := sum (List.length_filterMap_le PartResult.parseTime results)
    (by rw [yields.parses holds]; exact fun _ => mem_parseTimes)
  have solves : Duration.sum? ((results.filter PartResult.isSolved).map PartResult.solveTime) =
      some ((results.filter PartResult.isSolved).map PartResult.solveTime).sum := by
    refine sum (by rw [List.length_map]; exact List.length_filter_le _ _) fun time listed => ?_
    obtain ⟨result, kept, rfl⟩ := List.mem_map.mp listed
    exact yields.solves result (List.mem_filter.mp kept).1
  have summarized : Summary.ofResults? results = some
      ⟨results.countP PartResult.isSolved, results.countP (!·.isSolved),
        (results.filterMap PartResult.parseTime).sum,
        ((results.filter PartResult.isSolved).map PartResult.solveTime).sum⟩ := by
    simp only [Summary.ofResults?, parses, solves]
    rfl
  exact ⟨_, summarized, rfl, congrArg List.sum (yields.parses holds)⟩

end Summaries

/-- Printing lines one after the other. -/
theorem forM_printTo (lines : List ReportLine) (transcript : Transcript) :
    (lines.forM printTo).run transcript =
      pure ((), { transcript with printed := transcript.printed ++ lines }) := by
  induction lines generalizing transcript with
  | nil => rw [List.append_nil]; rfl
  | cons line lines ih =>
    have first : (printTo line).run transcript =
      pure ((), { transcript with printed := transcript.printed ++ [line] }) := rfl
    rw [List.forM, StateT.run_bind, first, pure_bind, ih, List.append_assoc]
    rfl

/-- How a run ends that has results. -/
def Summary.ending (summary : Summary) (total : Nat) : Ending :=
  if summary.failed = 0 then .success else .failure (.failures summary.failed total)

theorem Summary.exitCode_ending {summary : Summary} {total : Nat} :
    (summary.ending total).exitCode = 0 ↔ summary.failed = 0 := by
  unfold Summary.ending
  split
  · simpa [Ending.exitCode]
  · simpa [Ending.exitCode]

theorem Summary.ending_of_exitCode {summary : Summary} {total : Nat}
    (failed : (summary.ending total).exitCode ≠ 0) :
    summary.ending total = .failure (.failures summary.failed total) :=
  if_neg (exitCode_ending.not.mp failed)

/-- Endings go to the error output. -/
theorem Summary.output?_ending (summary : Summary) (total : Nat) :
    (summary.ending total).lines.filterMap ReportLine.output? = [] := by
  unfold Summary.ending
  split
  · rfl
  · rfl

/-- Results with a summary are reported by printing them in order. -/
theorem Accounts.reports {registry : Registry} {configuration : Configuration}
    {inputOf : Date → Except InputError Text} {clock : Nat → Duration} {printed : List ReportLine}
    {results : List PartResult} {summary : Summary}
    (accounts : Accounts registry configuration inputOf results)
    (summarized : Summary.ofResults? results = some summary)
    (failed : summary.failed = results.countP (!·.isSolved))
    (parseTime : summary.parseTime =
      (parseTimes clock registry inputOf 1 (workItems registry configuration)).sum)
    (prints : workItems registry configuration ≠ [] → ∃ elapsed, printed =
      configuration.heading (workItems registry configuration) ++
        results.map (PartResult.line configuration.quiet) ++
        summary.lines configuration.quiet elapsed ++ (summary.ending results.length).lines) :
    Reports registry configuration inputOf clock (summary.ending results.length) printed results
      summary where
  accounts := accounts
  succeeds := by
    rw [Summary.exitCode_ending, failed, List.countP_eq_zero]
    simp
  fails unsolved := by rw [Summary.ending_of_exitCode unsolved, failed]
  summarized := summarized
  parseTime := parseTime
  prints := prints
  output work quiet := by
    obtain ⟨elapsed, rfl⟩ := prints work
    have read : (fun result => (PartResult.line true result).output?) = (·.answer.toOption) :=
      funext output?_quietLine
    simp [Configuration.heading, Summary.lines, quiet, List.filterMap_map, read,
      Summary.output?_ending]
  error work quiet := by
    obtain ⟨elapsed, rfl⟩ := prints work
    have read : (fun result => (PartResult.line true result).error?) = PartResult.failure? :=
      funext error?_quietLine
    simp [Configuration.heading, Summary.lines, quiet, List.filterMap_map, read]

section Concluded

variable {files : Path → Except FileError Text} {clock : Nat → Duration}
  {configuration : Configuration} {registry : Registry}

/-- A run without work says so. -/
theorem concluded_idle (files : Path → Except FileError Text) (clock : Nat → Duration)
    (idle : workItems registry configuration = []) :
    (concluded files clock configuration registry).run ⟨0, []⟩ =
      pure (.success, ⟨0, [.output "No solvers found matching the specified filters."]⟩) := by
  simp only [concluded, runRegistry, idle]
  rfl

/-- A run with work and a summary reports it. -/
theorem concluded_work {results : List PartResult} {transcript : Transcript} {summary : Summary}
    (work : workItems registry configuration ≠ [])
    (ended : executed files clock configuration registry = (some results, transcript))
    (summarized : Summary.ofResults? results = some summary) :
    (concluded files clock configuration registry).run ⟨0, []⟩ =
      pure (summary.ending results.length, ⟨transcript.readings + 1, transcript.printed ++
        summary.lines configuration.quiet (clock transcript.readings - clock 0) ++
        (summary.ending results.length).lines⟩) := by
  have busy : (workItems registry configuration).isEmpty = false := List.isEmpty_eq_false_iff.mpr work
  have now (transcript : Transcript) : (transcribed files clock).now.run transcript =
      pure (clock transcript.readings, ⟨transcript.readings + 1, transcript.printed⟩) := rfl
  have headed (next : StateM Transcript Ending) :
      (if !configuration.quiet then do
          printTo (.output s!"Running {(workItems registry configuration).length} solver(s)...")
          next
        else next).run ⟨1, []⟩ =
        next.run ⟨1, configuration.heading (workItems registry configuration)⟩ := by
    unfold Configuration.heading
    cases configuration.quiet <;> rfl
  have ran : (execute (transcribed files clock) registry
      ⟨configuration.inputDir, configuration.inputFile⟩
      (fun result => printTo (result.line configuration.quiet)) (workItems registry configuration)).run
      ⟨1, configuration.heading (workItems registry configuration)⟩ =
      pure (some results, transcript) := ended
  have ends : (if summary.failed = 0 then pure .success
        else pure (.failure (.failures summary.failed results.length)) : StateM Transcript Ending) =
      pure (summary.ending results.length) := (apply_ite pure _ _ _).symm
  simp only [concluded, runRegistry, busy, Bool.false_eq_true, if_false, StateT.run_bind, now, pure_bind,
    Nat.zero_add, headed, ran, summarized, forM_printTo, ends, StateT.run_pure]

/-- A run without faults ends and reports as its results tell, if the clock does not run so far that
their times have no sum. -/
theorem concluded_reports (files : Path → Except FileError Text) (clock : Nat → Duration)
    (configuration : Configuration) (registry : Registry) (limit : Int)
    (faultless : ∀ item ∈ workItems registry configuration,
      item.Faultless registry (configuration.store.inputOf files item.date))
    (short : ∀ first second, clock second - clock first ≤ limit)
    (few : ((selected registry configuration (configuration.store.inputOf files)).length : Int) * limit ≤
      Duration.longest) :
    ∃ ending transcript results summary,
      (concluded files clock configuration registry).run ⟨0, []⟩ = pure (ending, transcript) ∧
      (∀ environment plugins words arguments, Arguments.read words = .ok arguments →
        Configuration.resolve environment.home environment.inputDir arguments = .ok configuration →
        registryFor plugins configuration.tags = .ok registry →
        (run (transcribed files clock) printTo environment plugins words).run ⟨0, []⟩ =
          pure (ending, transcript)) ∧
      (executed files clock configuration registry).1 = some results ∧
      Reports registry configuration (configuration.store.inputOf files) clock ending transcript.printed
        results summary := by
  obtain ⟨-, item, work, fault⟩ | ⟨results, ended, yields, -, logged⟩ :=
    (transcribing files clock configuration.quiet).execute_ends registry configuration.store
      (workItems registry configuration) ⟨1, configuration.heading (workItems registry configuration)⟩
  · exact absurd (faultless item work) fault
  have filled (item : WorkItem) (work : item ∈ workItems registry configuration) : item.parts ≠ [] :=
    List.ne_nil_of_mem (mem_parts.mpr ⟨le_rfl, (mem_workItems.mp work).2⟩)
  obtain ⟨summary, summarized, failed, parseTime⟩ := yields.ofResults? filled short few
  have accounted := accounts yields.untimed
  rcases both : executed files clock configuration registry with ⟨_, transcript⟩
  obtain rfl : _ = some results := (congrArg Prod.fst both).symm.trans ended
  have before : transcript.printed = _ := (congrArg (·.2.printed) both).symm.trans logged
  rcases eq_or_ne (workItems registry configuration) [] with idle | work
  · obtain rfl : results = [] := by
      have none := yields.untimed
      rwa [idle, List.flatMap_nil, List.map_eq_nil_iff] at none
    have ran := concluded_idle files clock idle
    have success : Ending.success = summary.ending 0 := (if_pos failed).symm
    refine ⟨_, _, [], summary, ran, fun _ _ _ _ read resolved registered => ?_, rfl, ?_⟩
    · rw [run_eq_concluded read resolved registered, ran]
    · rw [success]
      exact accounted.reports summarized failed parseTime fun work => absurd idle work
  · have ran := concluded_work work both summarized
    refine ⟨_, _, results, summary, ran, fun _ _ _ _ read resolved registered => ?_, rfl, ?_⟩
    · rw [run_eq_concluded read resolved registered, ran]
    · exact accounted.reports summarized failed parseTime fun _ => ⟨_, by rw [before]; rfl⟩

/-- Two days read the same two lines. The earlier day refuses the blank one, and the later day skips it, so
the run has answers and fails. -/
theorem concluded_two_days :
    ∃ (registry : Registry) (ending : Ending) (transcript : Transcript) (results : List PartResult),
      Registry.empty.registerAll [Catalogue.depths.entry, Catalogue.calories.entry] = .ok registry ∧
      (concluded (fun _ => .ok ['\n', '1']) (fun reading => (min reading 9 : Nat))
        ⟨none, none, none, [], [], some ['f'], true, ""⟩ registry).run ⟨0, []⟩ =
          pure (ending, transcript) ∧
      ending.exitCode ≠ 0 ∧
      transcript.printed.filterMap ReportLine.output? = results.filterMap (·.answer.toOption) ∧
      ∃ result ∈ results, result.date = ⟨2022, 1⟩ ∧ result.part = 2 := by
  obtain ⟨registry, registered⟩ := Registry.exists_registerAll_iff.mpr
    (⟨by decide, fun _ _ => Registry.contains_eq_false_iff.mpr (Registry.factory?_empty _), by decide⟩ :
      Registry.empty.Takes [Catalogue.depths.entry, Catalogue.calories.entry])
  have entries : registry.entries = [Catalogue.depths.entry, Catalogue.calories.entry] := by
    have perm := Registry.perm_of_registerAll registered
    rw [Registry.entries_empty, List.nil_append, List.perm_pair] at perm
    refine perm.resolve_right fun backwards => ?_
    have ordered := Registry.pairwise_entries registry
    rw [backwards, List.pairwise_pair] at ordered
    exact absurd ordered (by decide)
  have early : Catalogue.depths.entry ∈ registry.entries := by simp [entries]
  have late : Catalogue.calories.entry ∈ registry.entries := by simp [entries]
  have items : workItems registry ⟨none, none, none, [], [], some ['f'], true, ""⟩ =
      [⟨⟨2021, 1⟩, 1, 1⟩, ⟨⟨2022, 1⟩, 1, 2⟩] := by
    rw [workItems, entries]
    rfl
  have refused : Catalogue.depths.entry.create ['\n', '1'] =
      Outcome.report (.invalidLine 1 Number.LiteralError.empty.message) := rfl
  obtain ⟨ending, transcript, results, summary, ran, -, -, reports⟩ := concluded_reports
    (fun _ => .ok ['\n', '1']) (fun reading => (min reading 9 : Nat))
    ⟨none, none, none, [], [], some ['f'], true, ""⟩ registry 9 (by
      rw [items, List.forall_mem_cons, List.forall_mem_singleton]
      constructor
      · intro text readable
        obtain rfl : ['\n', '1'] = text := Except.ok.inj readable
        rw [show (⟨2021, 1⟩ : Date) = Catalogue.depths.entry.date from rfl, create_of_mem early, refused]
        constructor
        · rintro ⟨⟩
        · rintro session ⟨⟩
      · intro text readable
        obtain rfl : ['\n', '1'] = text := Except.ok.inj readable
        rw [show (⟨2022, 1⟩ : Date) = Catalogue.calories.entry.date from rfl, create_of_mem late]
        constructor
        · rintro ⟨⟩
        · intro session opened
          obtain rfl := Except.ok.inj opened
          decide +kernel)
    (fun first second => show ((min second 9 : Nat) - (min first 9 : Nat) : Int) ≤ 9 by omega)
    (by
      rw [selected, items, List.flatMap_cons, List.flatMap_singleton, List.length_append, length_untimed,
        length_untimed]
      decide)
  refine ⟨registry, ending, transcript, results, registered, ran, fun success => ?_, ?_, ?_⟩
  · obtain ⟨result, listed, date, -⟩ := (reports.accounts.complete ⟨2021, 1⟩ 1).mpr
      ⟨_, early, rfl, by simp, by simp, by decide, by simp, by simp⟩
    have solved := reports.succeeds.mp success result listed
    have failed := reports.accounts.refused result listed _ early date.symm _ _ rfl refused
    rw [PartResult.isSolved, failed] at solved
    contradiction
  · exact reports.output (by rw [items]; exact List.cons_ne_nil _ _) rfl
  · exact (reports.accounts.complete _ _).mpr
      ⟨_, late, rfl, by simp, by simp, by decide, by simp, by simp⟩

end Concluded

end CommandLine

end PuzzleCalendar
