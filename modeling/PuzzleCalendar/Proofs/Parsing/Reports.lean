import PuzzleCalendar.Puzzles.Adapters
import PuzzleCalendar.Puzzles.Combat
import PuzzleCalendar.Puzzles.Cups
import PuzzleCalendar.Puzzles.Jigsaw
import PuzzleCalendar.Puzzles.Passports
import PuzzleCalendar.Puzzles.Questionnaire
import PuzzleCalendar.Puzzles.Tickets

/-! # What readers report

A condition on the errors of a reading follows from the same condition on its steps. The readers that
do not go line by line name no line in their reports.
-/

namespace PuzzleCalendar

variable {ε : Type} {α β : Type} {allowed : ε → Prop}

/-- Every error of a reading meets a condition. -/
def ErrorsIn (allowed : ε → Prop) (reading : Except ε α) : Prop :=
  ∀ error, reading = .error error → allowed error

theorem errorsIn_ok (value : α) : ErrorsIn allowed (.ok value : Except ε α) := by
  rintro _ ⟨⟩

theorem errorsIn_error {error : ε} (meets : allowed error) :
    ErrorsIn allowed (.error error : Except ε α) := by
  rintro _ ⟨⟩
  exact meets

theorem ErrorsIn.imp {stronger : ε → Prop} {reading : Except ε α} (errors : ErrorsIn stronger reading)
    (weaken : ∀ error, stronger error → allowed error) : ErrorsIn allowed reading :=
  fun error failed => weaken error (errors error failed)

theorem ErrorsIn.bind {first : Except ε α} {second : α → Except ε β} (start : ErrorsIn allowed first)
    (next : ∀ value, first = .ok value → ErrorsIn allowed (second value)) :
    ErrorsIn allowed (first >>= second) := by
  cases read : first with
  | error error => exact errorsIn_error (start error read)
  | ok value => exact next value read

theorem ErrorsIn.map {reading : Except ε α} (errors : ErrorsIn allowed reading) (change : α → β) :
    ErrorsIn allowed (reading.map change) := by
  cases reading with
  | error error => exact errorsIn_error (errors error rfl)
  | ok value => exact errorsIn_ok (change value)

theorem errorsIn_mapError {δ : Type} {reading : Except δ α} {change : δ → ε}
    (meets : ∀ reason, allowed (change reason)) : ErrorsIn allowed (reading.mapError change) := by
  cases reading with
  | error reason => exact errorsIn_error (meets reason)
  | ok value => exact errorsIn_ok value

theorem errorsIn_mapM {read : α → Except ε β} {items : List α}
    (each : ∀ item ∈ items, ErrorsIn allowed (read item)) : ErrorsIn allowed (items.mapM read) := by
  induction items with
  | nil => exact errorsIn_ok []
  | cons item items ih =>
    rw [List.mapM_cons]
    obtain ⟨first, others⟩ := List.forall_mem_cons.mp each
    exact first.bind fun _ _ => (ih others).bind fun _ _ => errorsIn_ok _

/-- The error that a failure reports meets a condition. -/
def Failure.Meets (allowed : ε → Prop) : Failure ε → Prop
  | .reported error => allowed error
  | .fault => True

theorem Failure.Meets.imp {other : ε → Prop} (weaken : ∀ error, allowed error → other error)
    {failure : Failure ε} (meets : failure.Meets allowed) : failure.Meets other := by
  cases failure with
  | reported error => exact weaken error meets
  | fault => trivial

theorem errorsIn_report {error : ε} (meets : allowed error) :
    ErrorsIn (Failure.Meets allowed) (Outcome.report error : Outcome ε α) :=
  errorsIn_error meets

theorem errorsIn_orFault (found : Option α) :
    ErrorsIn (Failure.Meets allowed) (Outcome.orFault found) := by
  cases found with
  | none => exact errorsIn_error trivial
  | some value => exact errorsIn_ok value

theorem errorsIn_orReport {error : ε} (meets : allowed error) (found : Option α) :
    ErrorsIn (Failure.Meets allowed) (Outcome.orReport error found) := by
  cases found with
  | none => exact errorsIn_report meets
  | some value => exact errorsIn_ok value

theorem ErrorsIn.ofExcept {result : Except ε α} (errors : ErrorsIn allowed result) :
    ErrorsIn (Failure.Meets allowed) (Outcome.ofExcept result) := by
  cases result with
  | error error => exact errorsIn_report (errors error rfl)
  | ok value => exact errorsIn_ok value

/-- A condition on the line that an error names. -/
def ParseError.LineMeets (located : Nat → String → Prop) : ParseError → Prop
  | .invalidLine number detail => located number detail
  | _ => True

variable {located : Nat → String → Prop}

theorem ParseError.LineMeets.imp {other : Nat → String → Prop}
    (weaken : ∀ number detail, located number detail → other number detail) {error : ParseError}
    (meets : error.LineMeets located) : error.LineMeets other := by
  cases error with
  | invalidLine number detail => exact weaken number detail meets
  | _ => trivial

theorem Adapters.errorsIn_chainOf (adapters : List Nat) :
    ErrorsIn (Failure.Meets (ParseError.LineMeets located)) (chainOf adapters) := by
  refine (errorsIn_orFault _).bind fun device _ => (errorsIn_orFault _).bind fun gap? _ => ?_
  cases gap? with
  | none => exact errorsIn_ok _
  | some gap => exact errorsIn_report trivial

theorem Passports.errorsIn_parse (text : Text) :
    ErrorsIn (Failure.Meets (ParseError.LineMeets located)) (parse text) := by
  have field (number : Nat) (token : Text) :
      ErrorsIn (ParseError.LineMeets located) (readField number token) := by
    unfold readField
    split
    · exact errorsIn_ok _
    · exact errorsIn_error trivial
  refine (errorsIn_mapM fun block _ => ?_).ofExcept
  exact (errorsIn_mapM fun token _ => field block.2 token).bind fun fields _ => errorsIn_ok _

theorem Questionnaire.errorsIn_addAnswers (person : Text) (answers : Answers) (text : Text) :
    ErrorsIn (Failure.Meets (ParseError.LineMeets located)) (addAnswers person answers text) := by
  induction text generalizing answers with
  | nil => exact errorsIn_ok answers
  | cons char rest ih =>
    rw [addAnswers]
    split
    · exact (errorsIn_orFault _).bind fun answer _ => ih _
    · exact errorsIn_report trivial

theorem Questionnaire.errorsIn_parse (text : Text) :
    ErrorsIn (Failure.Meets (ParseError.LineMeets located)) (parse text) :=
  errorsIn_mapM fun _ _ => errorsIn_mapM fun person _ => errorsIn_addAnswers person 0 person

theorem Tickets.errorsIn_readTicket (line : Text) :
    ErrorsIn (ParseError.LineMeets located) (readTicket line) :=
  errorsIn_mapM fun _ _ => errorsIn_mapError fun _ => trivial

theorem Tickets.errorsIn_sectionLines (block : Option (List Text)) (header : String) :
    ErrorsIn (ParseError.LineMeets located) (sectionLines block header) := by
  unfold sectionLines
  split
  · split
    · exact errorsIn_ok _
    · exact errorsIn_error trivial
  · exact errorsIn_error trivial

theorem Tickets.errorsIn_parse (text : Text) :
    ErrorsIn (Failure.Meets (ParseError.LineMeets located)) (parse text) := by
  have rule (line : Text) : ErrorsIn (ParseError.LineMeets located) (readRule line) := by
    unfold readRule
    split
    · exact errorsIn_ok _
    · exact errorsIn_error trivial
  refine ErrorsIn.ofExcept ?_
  split
  · exact errorsIn_error trivial
  · refine (errorsIn_mapM fun line _ => rule line).bind fun rules _ => ?_
    split
    · exact errorsIn_error trivial
    · refine (errorsIn_sectionLines _ _).bind fun own _ => ?_
      cases own with
      | nil => exact errorsIn_error trivial
      | cons line _ =>
        refine (errorsIn_readTicket line).bind fun mine _ => (errorsIn_sectionLines _ _).bind ?_
        exact fun nearby _ => (errorsIn_mapM fun line _ => errorsIn_readTicket line).bind
          fun _ _ => errorsIn_ok _

theorem Jigsaw.errorsIn_readPixels (id : Nat) (row : List UInt8) :
    ErrorsIn (ParseError.LineMeets located) (readPixels id row) := by
  induction row with
  | nil => exact errorsIn_ok []
  | cons byte rest ih =>
    rw [readPixels]
    split
    · exact ih.map _
    · split
      · exact ih.map _
      · exact errorsIn_error trivial

theorem Jigsaw.errorsIn_readTile (block : List Text) :
    ErrorsIn (ParseError.LineMeets located) (readTile block) := by
  unfold readTile
  split
  · exact errorsIn_error trivial
  · split
    · exact errorsIn_error trivial
    · refine (errorsIn_mapM fun line _ => errorsIn_readPixels _ _).bind fun rows _ => ?_
      split
      · exact errorsIn_error trivial
      · exact errorsIn_ok _

theorem Jigsaw.errorsIn_parse (text : Text) :
    ErrorsIn (Failure.Meets (ParseError.LineMeets located)) (parse text) := by
  refine (errorsIn_mapM fun block _ => errorsIn_readTile block).ofExcept.bind fun tiles _ => ?_
  cases tiles with
  | nil => exact errorsIn_report trivial
  | cons first rest =>
    exact (errorsIn_orReport trivial _).bind fun tiles _ => errorsIn_orFault _

theorem Combat.errorsIn_readDeck (player : String) (block : List Text) :
    ErrorsIn (ParseError.LineMeets located) (readDeck player block) := by
  unfold readDeck
  split
  · exact errorsIn_error trivial
  · split
    · exact errorsIn_mapM fun card _ => errorsIn_mapError fun _ => trivial
    · exact errorsIn_error trivial

theorem Combat.errorsIn_parse (text : Text) :
    ErrorsIn (Failure.Meets (ParseError.LineMeets located)) (parse text) := by
  refine ErrorsIn.ofExcept ?_
  split
  · exact (errorsIn_readDeck _ _).bind fun one _ => (errorsIn_readDeck _ _).bind fun two _ =>
      errorsIn_ok _
  · exact errorsIn_error trivial

theorem Cups.errorsIn_parse (text : Text) :
    ErrorsIn (Failure.Meets (ParseError.LineMeets located)) (parse text) := by
  have label (char : Char) : ErrorsIn (ParseError.LineMeets located) (readLabel char) := by
    unfold readLabel
    split
    · exact errorsIn_ok _
    · exact errorsIn_error trivial
  refine ErrorsIn.ofExcept ((errorsIn_mapM fun char _ => label char).bind fun labels _ => ?_)
  split
  · exact errorsIn_error trivial
  · split
    · exact errorsIn_error trivial
    · exact errorsIn_ok _

end PuzzleCalendar
