import PuzzleCalendar.Proofs.Lines.Layout
import PuzzleCalendar.Proofs.Number.Decimal

/-! # Records, one a line

A reader may have a state, so that it matters on which lines it is called. It is called on the trimmed
lines of the text from the first one on, up to the first that it refuses or to the last that is not blank.
Integers that are written one a line come back from every layout of the lines.
-/

namespace PuzzleCalendar.Input

open Text

section Calls

variable {σ α : Type} {read : Text → σ → Except String α × σ} {start final : σ} {lines : List Text}
  {number : Nat}

/-- The outcomes of calling a reader on lines one after the other, and the state after the last call. -/
def callAll (read : Text → σ → Except String α × σ) : List Text → σ → List (Except String α) × σ
  | [], state => ([], state)
  | line :: lines, state =>
    let (outcome, next) := read line state
    let (outcomes, final) := callAll read lines next
    (outcome :: outcomes, final)

/-- A reader that also writes down each line that it is called on. -/
def noting (read : Text → σ → Except String α × σ) (line : Text) :
    σ × List Text → Except String α × σ × List Text
  | (state, noted) =>
    let (outcome, next) := read line state
    (outcome, next, noted ++ [line])

/-- What collecting lines comes to when the reader starts in a state, and the state in which it ends. -/
def collectFrom (read : Text → σ → Except String α × σ) (number : Nat) (lines : List Text) (start : σ) :
    Except ParseError (List α) × σ :=
  (collect (m := StateM σ) read number lines).run start

/-- What reading a text comes to when the reader starts in a state, and the state in which it ends. -/
def readLinesFrom (read : Text → σ → Except String α × σ) (text : Text) (start : σ) :
    Except ParseError (List α) × σ :=
  (readLinesM (m := StateM σ) read text).run start

theorem readLinesFrom_eq (read : Text → σ → Except String α × σ) (text : Text) (start : σ) :
    readLinesFrom read text start =
      collectFrom read 1 ((trimmedLines text).rdropWhile List.isEmpty) start := by
  rw [readLinesFrom, readLinesM, recordLines_eq, collectFrom]

theorem collectFrom_cons_of_error {line : Text} {detail : String} {next : σ}
    (refused : read line start = (.error detail, next)) :
    collectFrom read number (line :: lines) start = (.error (.invalidLine number detail), next) := by
  rw [collectFrom, collect, StateT.run_bind, StateT.run, refused]
  rfl

theorem collectFrom_cons_of_ok {line : Text} {record : α} {next : σ}
    (first : read line start = (.ok record, next)) :
    collectFrom read number (line :: lines) start =
      ((collectFrom read (number + 1) lines next).1.map (record :: ·),
        (collectFrom read (number + 1) lines next).2) := by
  have now : StateT.run (m := Id) (read line) start = pure (.ok record, next) := first
  rw [collectFrom, collectFrom, collect, StateT.run_bind, now, pure_bind]
  dsimp only
  rw [StateT.run_bind]
  rcases (collect (m := StateM σ) read (number + 1) lines).run next with ⟨error | records, last⟩ <;> rfl

theorem callAll_cons (read : Text → σ → Except String α × σ) (line : Text) (lines : List Text) (start : σ) :
    callAll read (line :: lines) start =
      ((read line start).1 :: (callAll read lines (read line start).2).1,
        (callAll read lines (read line start).2).2) := rfl

theorem callAll_nil_iff {outcomes : List (Except String α)} :
    callAll read [] start = (outcomes, final) ↔ outcomes = [] ∧ final = start := by
  rw [callAll, Prod.mk.injEq]
  exact and_congr eq_comm eq_comm

theorem callAll_cons_iff {line : Text} {outcome : Except String α} {outcomes : List (Except String α)} :
    callAll read (line :: lines) start = (outcome :: outcomes, final) ↔
      ∃ next, read line start = (outcome, next) ∧ callAll read lines next = (outcomes, final) := by
  rw [callAll_cons]
  simp only [Prod.ext_iff, List.cons.injEq]
  constructor
  · rintro ⟨⟨first, later⟩, ends⟩
    exact ⟨_, ⟨first, rfl⟩, later, ends⟩
  · rintro ⟨_, ⟨first, rfl⟩, later, ends⟩
    exact ⟨⟨first, later⟩, ends⟩

theorem callAll_cons_ne_nil {line : Text} : callAll read (line :: lines) start ≠ ([], final) := by
  simp [callAll_cons]

theorem length_callAll (read : Text → σ → Except String α × σ) (lines : List Text) (start : σ) :
    (callAll read lines start).1.length = lines.length := by
  induction lines generalizing start with
  | nil => rfl
  | cons line lines ih => rw [callAll_cons, List.length_cons, List.length_cons, ih]

/-- The reader reads each of some lines, or refuses one of them after it has read those before. -/
theorem callAll_cases (read : Text → σ → Except String α × σ) (lines : List Text) (start : σ) :
    (∃ (records : List α) (final : σ), callAll read lines start = (records.map .ok, final)) ∨
    ∃ (called below : List Text) (records : List α) (detail : String) (final : σ), lines = called ++ below ∧
      callAll read called start = (records.map .ok ++ [.error detail], final) := by
  induction lines generalizing start with
  | nil => exact .inl ⟨[], start, rfl⟩
  | cons line lines ih =>
    rcases first : read line start with ⟨detail | record, next⟩
    · refine .inr ⟨[line], lines, [], detail, next, rfl, ?_⟩
      exact callAll_cons_iff.mpr ⟨next, first, rfl⟩
    · obtain ⟨records, final, later⟩ | ⟨called, below, records, detail, final, rfl, later⟩ := ih next
      · exact .inl ⟨record :: records, final, callAll_cons_iff.mpr ⟨next, first, later⟩⟩
      · refine .inr ⟨line :: called, below, record :: records, detail, final, rfl, ?_⟩
        exact callAll_cons_iff.mpr ⟨next, first, later⟩

theorem collectFrom_of_read {records : List α} (calls : callAll read lines start = (records.map .ok, final)) :
    collectFrom read number lines start = (.ok records, final) := by
  induction lines generalizing start number records with
  | nil =>
    obtain ⟨none, rfl⟩ := callAll_nil_iff.mp calls
    rw [List.map_eq_nil_iff.mp none]
    rfl
  | cons line lines ih =>
    cases records with
    | nil => exact absurd calls callAll_cons_ne_nil
    | cons record records =>
      obtain ⟨next, first, later⟩ := callAll_cons_iff.mp calls
      rw [collectFrom_cons_of_ok first, ih later]
      rfl

theorem collectFrom_of_refused {called below : List Text} {records : List α} {detail : String}
    (calls : callAll read called start = (records.map .ok ++ [.error detail], final)) :
    collectFrom read number (called ++ below) start =
      (.error (.invalidLine (number + records.length) detail), final) := by
  induction called generalizing start number records with
  | nil =>
    obtain ⟨none, -⟩ := callAll_nil_iff.mp calls
    exact absurd none (by simp)
  | cons line called ih =>
    cases records with
    | nil =>
      obtain ⟨next, refused, later⟩ := callAll_cons_iff.mp calls
      cases called with
      | nil =>
        obtain ⟨-, rfl⟩ := callAll_nil_iff.mp later
        exact collectFrom_cons_of_error refused
      | cons other called => exact absurd later callAll_cons_ne_nil
    | cons record records =>
      obtain ⟨next, first, later⟩ := callAll_cons_iff.mp calls
      rw [List.cons_append, collectFrom_cons_of_ok first, ih later, List.length_cons, Nat.add_right_comm]
      rfl

/-- All lines are read when every call succeeds. -/
theorem collectFrom_eq_ok_iff {records : List α} :
    collectFrom read number lines start = (.ok records, final) ↔
      callAll read lines start = (records.map .ok, final) := by
  refine ⟨fun collected => ?_, collectFrom_of_read⟩
  obtain ⟨others, last, calls⟩ | ⟨called, below, others, detail, last, rfl, calls⟩ :=
    callAll_cases read lines start
  · rw [collectFrom_of_read calls, Prod.mk.injEq, Except.ok.injEq] at collected
    rw [calls, collected.1, collected.2]
  · rw [collectFrom_of_refused calls] at collected
    simp at collected

/-- Collecting stops at the first call that fails. -/
theorem collectFrom_eq_error_iff {error : ParseError} :
    collectFrom read number lines start = (.error error, final) ↔
      ∃ (called : List Text) (records : List α) (detail : String), called <+: lines ∧
        callAll read called start = (records.map .ok ++ [.error detail], final) ∧
        error = .invalidLine (number + records.length) detail := by
  constructor
  · intro collected
    obtain ⟨others, last, calls⟩ | ⟨called, below, others, detail, last, rfl, calls⟩ :=
      callAll_cases read lines start
    · rw [collectFrom_of_read calls] at collected
      simp at collected
    · rw [collectFrom_of_refused calls, Prod.mk.injEq, Except.error.injEq] at collected
      obtain ⟨rfl, rfl⟩ := collected
      exact ⟨called, others, detail, List.prefix_append called below, calls, rfl⟩
  · rintro ⟨called, records, detail, ⟨below, rfl⟩, calls, rfl⟩
    exact collectFrom_of_refused calls

theorem callAll_noting (read : Text → σ → Except String α × σ) (lines : List Text) (start : σ)
    (noted : List Text) : callAll (noting read) lines (start, noted) =
      ((callAll read lines start).1, (callAll read lines start).2, noted ++ lines) := by
  induction lines generalizing start noted with
  | nil => rw [callAll, callAll, List.append_nil]
  | cons line lines ih =>
    have first : noting read line (start, noted) =
        ((read line start).1, (read line start).2, noted ++ [line]) := rfl
    rw [callAll_cons, callAll_cons, first, ih, List.append_assoc, List.singleton_append]

/-- Writing lines down changes nothing else. -/
theorem collectFrom_noting (read : Text → σ → Except String α × σ) (number : Nat) (lines : List Text)
    (start : σ) (noted : List Text) : ∃ called,
      collectFrom (noting read) number lines (start, noted) =
        ((collectFrom read number lines start).1, (collectFrom read number lines start).2, called) := by
  obtain ⟨records, final, calls⟩ | ⟨called, below, records, detail, final, rfl, calls⟩ :=
    callAll_cases read lines start
  · have noting := callAll_noting read lines start noted
    rw [calls] at noting
    exact ⟨_, by rw [collectFrom_of_read noting, collectFrom_of_read calls]⟩
  · have noting := callAll_noting read called start noted
    rw [calls] at noting
    exact ⟨_, by rw [collectFrom_of_refused noting, collectFrom_of_refused calls]⟩

/-- A reader without a state reads as in any state. -/
theorem collect_eq_collectFrom (read : Text → Except String α) (number : Nat) (lines : List Text)
    (start : σ) : collect (m := Id) (fun line => pure (read line)) number lines =
      (collectFrom (fun line state => (read line, state)) number lines start).1 := by
  induction lines generalizing number with
  | nil => rfl
  | cons line lines ih =>
    rw [collect_cons]
    cases first : read line with
    | error detail => rw [collectFrom_cons_of_error (by rw [first])]
    | ok record => rw [collectFrom_cons_of_ok (by rw [first]), ih]

/-- The call that is refused is the last one. -/
theorem length_of_refused {records : List α} {detail : String}
    (calls : (callAll read lines start).1 = records.map .ok ++ [.error detail]) :
    1 + records.length = lines.length := by
  rw [← length_callAll read lines start, calls]
  simp [Nat.add_comm]

theorem readLinesFrom_noting_eq_ok_iff {text : Text} {records : List α} {called : List Text} :
    readLinesFrom (noting read) text (start, []) = (.ok records, final, called) ↔
      called = (trimmedLines text).rdropWhile List.isEmpty ∧
        callAll read called start = (records.map .ok, final) := by
  rw [readLinesFrom_eq, collectFrom_eq_ok_iff, callAll_noting, List.nil_append]
  simp only [Prod.ext_iff]
  constructor
  · rintro ⟨calls, ends, rfl⟩
    exact ⟨rfl, calls, ends⟩
  · rintro ⟨rfl, calls, ends⟩
    exact ⟨calls, ends, rfl⟩

theorem readLinesFrom_noting_eq_error_iff {text : Text} {error : ParseError} {called : List Text} :
    readLinesFrom (noting read) text (start, []) = (.error error, final, called) ↔
      called <+: (trimmedLines text).rdropWhile List.isEmpty ∧
        ∃ (records : List α) (detail : String),
          callAll read called start = (records.map .ok ++ [.error detail], final) ∧
          error = .invalidLine called.length detail := by
  rw [readLinesFrom_eq, collectFrom_eq_error_iff]
  simp only [callAll_noting, List.nil_append, Prod.ext_iff]
  constructor
  · rintro ⟨_, records, detail, starts, ⟨calls, ends, rfl⟩, rfl⟩
    exact ⟨starts, records, detail, ⟨calls, ends⟩, by rw [length_of_refused calls]⟩
  · rintro ⟨starts, records, detail, ⟨calls, ends⟩, rfl⟩
    exact ⟨called, records, detail, starts, ⟨calls, ends, rfl⟩, by rw [length_of_refused calls]⟩

theorem readLinesFrom_eq_iff {text : Text} {result : Except ParseError (List α)} :
    readLinesFrom read text start = (result, final) ↔
      ∃ called, readLinesFrom (noting read) text (start, []) = (result, final, called) := by
  rw [readLinesFrom_eq, readLinesFrom_eq]
  obtain ⟨called, noted⟩ := collectFrom_noting read 1 ((trimmedLines text).rdropWhile List.isEmpty) start []
  rw [noted]
  simp [Prod.ext_iff]

theorem readLines_eq_readLinesFrom (read : Text → Except String α) (text : Text) (start : σ) :
    readLines read text = (readLinesFrom (fun line state => (read line, state)) text start).1 := by
  rw [readLinesFrom_eq, ← collect_eq_collectFrom, ← recordLines_eq]
  rfl

end Calls

section Literals

variable {number : Int}

theorem isBlank_of_isDigit {char : Char} (digit : Number.IsDigit char) : isBlank char = false :=
  isBlank_of_visible (Char.le_trans (by decide) digit.1) (Char.le_trans digit.2 (by decide))

theorem isBlank_of_mem_literal {char : Char} (member : char ∈ Number.literal number) :
    isBlank char = false := by
  cases number with
  | ofNat number => exact isBlank_of_isDigit (Number.isDigit_of_mem_toDigits member)
  | negSucc number =>
    obtain rfl | member := List.mem_cons.mp member
    · rfl
    · exact isBlank_of_isDigit (Number.isDigit_of_mem_toDigits member)

theorem literal_ne_nil (number : Int) : Number.literal number ≠ [] := by
  cases number with
  | ofNat number => exact Nat.toDigits_ne_nil
  | negSucc number => exact List.cons_ne_nil _ _

theorem solid_literal (number : Int) :
    Number.literal number ≠ [] ∧ ∀ char ∈ Number.literal number, isBlank char = false :=
  ⟨literal_ne_nil number, fun _ => isBlank_of_mem_literal⟩

end Literals

/-- A text is read by calling the reader on its trimmed lines without the blank ones at the end, in order.
All of them are read exactly when every call succeeds. Otherwise the first call that fails is the last one,
and the error has the number of its line and its report. Integers that are written one a line are read back
from every layout. -/
theorem readLines_calls_in_order (text : Text) :
    (∀ {σ α : Type} (read : Text → σ → Except String α × σ) (start final : σ),
      (∀ (records : List α) (called : List Text),
        readLinesFrom (noting read) text (start, []) = (.ok records, final, called) ↔
          called = (trimmedLines text).rdropWhile List.isEmpty ∧
          callAll read called start = (records.map .ok, final)) ∧
      (∀ (error : ParseError) (called : List Text),
        readLinesFrom (noting read) text (start, []) = (.error error, final, called) ↔
          called <+: (trimmedLines text).rdropWhile List.isEmpty ∧
          ∃ (records : List α) (detail : String),
            callAll read called start = (records.map .ok ++ [.error detail], final) ∧
            error = .invalidLine called.length detail) ∧
      ∀ result, readLinesFrom read text start = (result, final) ↔
        ∃ called, readLinesFrom (noting read) text (start, []) = (result, final, called)) ∧
    (∀ {α : Type} (read : Text → Except String α),
      readLines read text = (readLinesFrom (fun line state => (read line, state)) text ()).1) ∧
    (∀ (bits : Nat) (numbers : List Int),
      (∀ number ∈ numbers, -2 ^ (bits - 1) ≤ number ∧ number < 2 ^ (bits - 1)) →
      LaidOut (numbers.map Number.literal) text →
      readLines (fun line => (Number.readSigned bits line).mapError Number.LiteralError.message) text =
        .ok numbers) ∧
    ∀ (bits : Nat) (numbers : List Nat), (∀ number ∈ numbers, number < 2 ^ bits) →
      LaidOut (numbers.map (Nat.toDigits 10)) text →
      readLines (fun line => (Number.readUnsigned bits line).mapError Number.LiteralError.message) text =
        .ok numbers := by
  refine ⟨fun read start final => ⟨fun _ _ => readLinesFrom_noting_eq_ok_iff,
    fun _ _ => readLinesFrom_noting_eq_error_iff, fun _ => readLinesFrom_eq_iff⟩,
    fun read => readLines_eq_readLinesFrom read text (), ?_, ?_⟩
  · intro bits numbers held laid
    apply readLines_of_solid laid fun number _ => solid_literal number
    intro number member
    rw [Number.readSigned_literal (held number member)]
    rfl
  · intro bits numbers held laid
    apply readLines_of_solid laid fun number _ => solid_literal number
    intro number member
    rw [Number.readUnsigned_toDigits (held number member)]
    rfl

theorem readLines_two_literals :
    LaidOut ([7, -12].map Number.literal) " 7 \r\n-12\n\t\n".toList ∧
    readLines (fun line => (Number.readSigned 8 line).mapError Number.LiteralError.message)
      " 7 \r\n-12\n\t\n".toList = .ok [7, -12] ∧
    LaidOut ([255].map (Nat.toDigits 10)) "255".toList ∧
    readLines (fun line => (Number.readUnsigned 8 line).mapError Number.LiteralError.message)
      "255".toList = .ok [255] := by
  have signed : LaidOut ([7, -12].map Number.literal)
      (" ".toList ++ "7".toList ++ " ".toList ++ "\r\n".toList ++
        ("".toList ++ "-12".toList ++ "".toList ++ "\n".toList ++ "\t\n".toList)) :=
    .line (by decide) (by decide) (.inr rfl)
      (.line (by decide) (by decide) (.inl rfl) (.blank (trim_eq_nil_iff.mp rfl)))
  have unsigned : LaidOut ([255].map (Nat.toDigits 10)) ("".toList ++ "255".toList ++ "".toList) :=
    .last (by decide) (by decide)
  refine ⟨signed, ?_, unsigned, ?_⟩
  · exact (readLines_calls_in_order _).2.2.1 8 [7, -12] (by decide) signed
  · exact (readLines_calls_in_order _).2.2.2 8 [255] (by decide) unsigned

end PuzzleCalendar.Input
