import PuzzleCalendar.Proofs.Lines.Records
import PuzzleCalendar.Puzzles.PasswordPolicy

/-! # Written policies

Every entry is read back from the line that it is written on, and one without a password too. But a line is
trimmed before it is read, and this takes away the blank that an empty password leaves at its end. So a
list of entries comes back from the text of its lines exactly when all passwords have letters, and otherwise
the first line whose password has none is refused.
-/

namespace PuzzleCalendar.PasswordPolicy

open Text

/-- An entry that a line can hold: its bounds are indices, and the letter and the password, which may be
empty, consist of letters from a to z. -/
structure Entry.Writable (entry : Entry) : Prop where
  low : entry.low < 2 ^ 64
  high : entry.high < 2 ^ 64
  letter : isLetter entry.letter = true
  password : ∀ char ∈ entry.password, isLetter char = true

/-- The line of an entry up to the blank before the password. -/
def Entry.policy (entry : Entry) : Text :=
  Nat.toDigits 10 entry.low ++ '-' :: (Nat.toDigits 10 entry.high ++ [' ', entry.letter, ':'])

section Fields

variable {line low high password : Text} {letter : Char} {entry : Entry}

theorem isDecimalDigit_of_isDigit {char : Char} (digit : Number.IsDigit char) :
    isDecimalDigit char = true := by
  obtain ⟨least, greatest⟩ := digit
  have least : 48 ≤ char.toNat := least
  have greatest : char.toNat ≤ 57 := greatest
  rw [isDecimalDigit, CharRanges.contains, decimalDigits, List.any_cons, Bool.or_eq_true]
  exact .inl (by simp [least, greatest])

theorem isDecimalDigit_of_mem_toDigits (bound : Nat) :
    ∀ char ∈ Nat.toDigits 10 bound, isDecimalDigit char = true :=
  fun _ member => isDecimalDigit_of_isDigit (Number.isDigit_of_mem_toDigits member)

/-- A run of digits is cut off a text at the next character that is none. -/
theorem span_digits {digits : Text} (run : ∀ char ∈ digits, isDecimalDigit char = true) (next : Char)
    (ends : isDecimalDigit next = false) (rest : Text) :
    (digits ++ next :: rest).takeWhile isDecimalDigit = digits ∧
      (digits ++ next :: rest).dropWhile isDecimalDigit = next :: rest := by
  rw [List.takeWhile_append_of_pos run, List.dropWhile_append_of_pos run]
  simp [ends]

/-- The shape of a line. -/
theorem fields?_eq_some_iff : fields? line = some (low, high, letter, password) ↔
    line = low ++ '-' :: (high ++ ' ' :: letter :: ':' :: ' ' :: password) ∧
      (low ≠ [] ∧ ∀ char ∈ low, isDecimalDigit char = true) ∧
      (high ≠ [] ∧ ∀ char ∈ high, isDecimalDigit char = true) ∧
      isLetter letter = true ∧ ∀ char ∈ password, isLetter char = true := by
  constructor
  · intro found
    unfold fields? at found
    dsimp only at found
    split at found
    · rename_i rest dash
      split at found
      · rename_i letter password blank
        split at found
        · rename_i meets
          simp only [Option.some.injEq, Prod.mk.injEq] at found
          obtain ⟨rfl, rfl, rfl, rfl⟩ := found
          simp only [Bool.and_eq_true, Bool.not_eq_true', List.isEmpty_eq_false_iff,
            List.all_eq_true] at meets
          obtain ⟨⟨⟨someLow, someHigh⟩, isLetter⟩, letters⟩ := meets
          refine ⟨?_, ⟨someLow, fun char => List.mem_takeWhile_imp⟩,
            ⟨someHigh, fun char => List.mem_takeWhile_imp⟩, isLetter, letters⟩
          rw [← blank, List.takeWhile_append_dropWhile, ← dash, List.takeWhile_append_dropWhile]
        · contradiction
      · contradiction
    · contradiction
  · rintro ⟨rfl, ⟨someLow, lowDigits⟩, ⟨someHigh, highDigits⟩, isLetter, letters⟩
    have lowSpan := span_digits lowDigits '-' (by decide)
    have highSpan := span_digits highDigits ' ' (by decide)
    simp only [fields?, lowSpan, highSpan]
    simpa [someLow, someHigh, isLetter] using letters

theorem readBound_eq_ok_iff {digits : Text} {bound : Nat} :
    readBound digits = .ok bound ↔ Number.readUnsigned 64 digits = .ok bound :=
  mapError_eq_ok_iff

theorem Entry.read_eq_ok_iff : Entry.read line = .ok entry ↔ ∃ low high,
    fields? line = some (low, high, entry.letter, entry.password) ∧
      Number.readUnsigned 64 low = .ok entry.low ∧ Number.readUnsigned 64 high = .ok entry.high := by
  rw [Entry.read]
  cases fields? line with
  | none => simp
  | some parts =>
    obtain ⟨low, high, letter, password⟩ := parts
    simp only [bind_eq_ok_iff, readBound_eq_ok_iff]
    constructor
    · rintro ⟨first, lowRead, second, highRead, same⟩
      obtain rfl := Except.ok.inj same
      exact ⟨low, high, rfl, lowRead, highRead⟩
    · rintro ⟨_, _, same, lowRead, highRead⟩
      simp only [Option.some.injEq, Prod.mk.injEq] at same
      obtain ⟨rfl, rfl, rfl, rfl⟩ := same
      exact ⟨_, lowRead, _, highRead, rfl⟩

/-- The shape allows an empty password. -/
theorem Entry.Writable.read_render (writable : entry.Writable) : Entry.read entry.render = .ok entry := by
  rw [Entry.read_eq_ok_iff]
  refine ⟨Nat.toDigits 10 entry.low, Nat.toDigits 10 entry.high, ?_,
    Number.readUnsigned_toDigits writable.low, Number.readUnsigned_toDigits writable.high⟩
  rw [fields?_eq_some_iff]
  exact ⟨by simp [render], ⟨Nat.toDigits_ne_nil, isDecimalDigit_of_mem_toDigits _⟩,
    ⟨Nat.toDigits_ne_nil, isDecimalDigit_of_mem_toDigits _⟩, writable.letter, writable.password⟩

/-- The shape does not allow that the blank before the password is missing. -/
theorem Entry.read_policy (entry : Entry) : Entry.read entry.policy = .error (.shape entry.policy) := by
  have lowSpan := span_digits (isDecimalDigit_of_mem_toDigits entry.low) '-' (by decide)
  have highSpan := span_digits (isDecimalDigit_of_mem_toDigits entry.high) ' ' (by decide)
  have refused : fields? entry.policy = none := by simp only [fields?, Entry.policy, lowSpan, highSpan]
  rw [Entry.read, refused]

theorem Entry.writable_of_read (read : Entry.read line = .ok entry) : entry.Writable := by
  obtain ⟨low, high, shape, lowRead, highRead⟩ := Entry.read_eq_ok_iff.mp read
  obtain ⟨-, -, -, letter, password⟩ := fields?_eq_some_iff.mp shape
  have lowLeast := Number.readUnsigned_le lowRead
  have highLeast := Number.readUnsigned_le highRead
  exact ⟨by omega, by omega, letter, password⟩

end Fields

section Trimming

variable {line : Text} {entry : Entry}

theorem isBlank_of_isLetter {char : Char} (letter : isLetter char = true) : isBlank char = false := by
  rw [isLetter, Bool.and_eq_true, decide_eq_true_eq, decide_eq_true_eq] at letter
  exact Input.isBlank_of_visible (Char.le_trans (by decide) letter.1) (Char.le_trans letter.2 (by decide))

theorem Entry.render_eq (entry : Entry) : entry.render = entry.policy ++ ' ' :: entry.password := by
  simp [render, policy]

/-- A policy starts with a digit. -/
theorem Entry.exists_policy_eq (entry : Entry) : ∃ first between, isBlank first = false ∧
    entry.policy = first :: (between ++ [':']) := by
  obtain ⟨first, digits, same⟩ := List.exists_cons_of_ne_nil (Nat.toDigits_ne_nil (b := 10) (n := entry.low))
  refine ⟨first, digits ++ '-' :: (Nat.toDigits 10 entry.high ++ [' ', entry.letter]), ?_, ?_⟩
  · have member : first ∈ Nat.toDigits 10 entry.low := same ▸ List.mem_cons_self
    exact Input.isBlank_of_isDigit (Number.isDigit_of_mem_toDigits member)
  · simp [policy, same]

theorem Entry.trim_render_of_nil (empty : entry.password = []) : trim entry.render = entry.policy := by
  obtain ⟨first, between, solid, same⟩ := entry.exists_policy_eq
  rw [render_eq, empty, trim_append_blanks (List.forall_mem_singleton.mpr rfl), same]
  exact Input.trim_of_solid_ends solid (by decide) between

theorem Entry.Writable.trim_render (writable : entry.Writable) (some : entry.password ≠ []) :
    trim entry.render = entry.render := by
  obtain ⟨first, between, solid, same⟩ := entry.exists_policy_eq
  obtain ⟨letters, last, ends⟩ := List.eq_nil_or_concat entry.password |>.resolve_left some
  have letter : isBlank last = false := by
    apply isBlank_of_isLetter
    exact writable.password last (by simp [ends])
  have split : entry.render = first :: ((between ++ [':', ' '] ++ letters) ++ [last]) := by
    simp [render_eq, same, ends]
  rw [split]
  exact Input.trim_of_solid_ends solid letter _

theorem Entry.trim_render_ne_nil (entry : Entry) : trim entry.render ≠ [] := by
  obtain ⟨first, between, solid, same⟩ := entry.exists_policy_eq
  rw [render_eq, same, List.cons_append, trim_cons solid]
  exact List.cons_ne_nil _ _

theorem Entry.Writable.newline_notMem (writable : entry.Writable) : '\n' ∉ entry.render := by
  have noDigit {bound : Nat} : '\n' ∉ Nat.toDigits 10 bound :=
    fun member => absurd (isDecimalDigit_of_mem_toDigits bound _ member) (by decide)
  have noLetter : '\n' ∉ entry.letter :: entry.password := by
    intro member
    have letters : ∀ char ∈ entry.letter :: entry.password, isLetter char = true :=
      List.forall_mem_cons.mpr ⟨writable.letter, writable.password⟩
    exact absurd (letters _ member) (by decide)
  rw [List.mem_cons, not_or] at noLetter
  simp [render, noDigit, noLetter]

/-- No trimmed line ends with the blank before an empty password. -/
theorem Entry.password_ne_nil_of_read (trimmed : trim line = line) (read : Entry.read line = .ok entry) :
    entry.password ≠ [] := by
  intro empty
  obtain ⟨low, high, shape, -⟩ := Entry.read_eq_ok_iff.mp read
  obtain ⟨split, -⟩ := fields?_eq_some_iff.mp shape
  have ends : line = low ++ '-' :: (high ++ [' ', entry.letter, ':']) ++ [' '] := by simp [split, empty]
  have shorter := (trim_sublist (low ++ '-' :: (high ++ [' ', entry.letter, ':']))).length_le
  have blank : ∀ char ∈ [' '], isBlank char = true := List.forall_mem_singleton.mpr rfl
  rw [← trim_append_blanks blank, ← ends, trimmed, ends, List.length_append] at shorter
  exact absurd shorter (by simp)

end Trimming

section Texts

variable {entries : List Entry} {text : Text}

theorem parse_eq_ok_iff : parse text = .ok entries ↔
    Input.readLines (fun line => (Entry.read line).mapError EntryError.message) text = .ok entries :=
  Outcome.ofExcept_eq_ok_iff

/-- Whatever is read has a password. -/
theorem writable_of_parse (read : parse text = .ok entries) :
    ∀ entry ∈ entries, entry.Writable ∧ entry.password ≠ [] := by
  intro entry member
  obtain ⟨line, listed, same⟩ := Input.exists_line_of_mem_collect (parse_eq_ok_iff.mp read) member
  have read := mapError_eq_ok_iff.mp same
  exact ⟨Entry.writable_of_read read, Entry.password_ne_nil_of_read (Input.trim_of_mem_recordLines listed) read⟩

theorem recordLines_of_laidOut (writable : ∀ entry ∈ entries, entry.Writable)
    (laid : Input.LaidOut (entries.map Entry.render) text) :
    Input.recordLines text = (entries.map Entry.render).map trim := by
  apply laid.recordLines_eq
  · exact List.forall_mem_map.mpr fun entry member => (writable entry member).newline_notMem
  · exact List.forall_mem_map.mpr fun entry _ => entry.trim_render_ne_nil

theorem Entry.Writable.read_trim_render {entry : Entry} (writable : entry.Writable)
    (some : entry.password ≠ []) :
    (Entry.read (trim entry.render)).mapError EntryError.message = .ok entry := by
  rw [writable.trim_render some, writable.read_render]
  rfl

theorem parse_of_laidOut (writable : ∀ entry ∈ entries, entry.Writable)
    (some : ∀ entry ∈ entries, entry.password ≠ [])
    (laid : Input.LaidOut (entries.map Entry.render) text) : parse text = .ok entries := by
  rw [parse_eq_ok_iff]
  apply Input.readLines_of_laidOut laid
  intro entry member
  exact ⟨(writable entry member).newline_notMem, entry.trim_render_ne_nil,
    (writable entry member).read_trim_render (some entry member)⟩

/-- The first line with an empty password is refused without the blank at its end. -/
theorem parse_of_first_empty {before after : List Entry} {entry : Entry}
    (writable : ∀ other ∈ before ++ entry :: after, other.Writable)
    (some : ∀ earlier ∈ before, earlier.password ≠ []) (empty : entry.password = [])
    (laid : Input.LaidOut ((before ++ entry :: after).map Entry.render) text) :
    parse text = Outcome.report
      (.invalidLine (before.length + 1) (EntryError.shape entry.policy).message) := by
  have split := recordLines_of_laidOut writable laid
  rw [List.map_append, List.map_append, List.map_cons, List.map_cons] at split
  have passed : ∀ line ∈ (before.map Entry.render).map trim,
      ∃ record, (Entry.read line).mapError EntryError.message = .ok record := by
    rw [List.map_map]
    refine List.forall_mem_map.mpr fun earlier member => ⟨earlier, ?_⟩
    exact (writable earlier (List.mem_append_left _ member)).read_trim_render (some earlier member)
  have refused : (Entry.read (trim entry.render)).mapError EntryError.message =
      .error (EntryError.shape entry.policy).message := by
    rw [Entry.trim_render_of_nil empty, Entry.read_policy]
    rfl
  rw [parse, Input.readLines_of_first_refused split passed refused, List.length_map, List.length_map]
  rfl

/-- Entries come back from the text of their lines, however these are laid out, exactly when no password is
empty. Reading one line undoes writing it for an empty password as well, but the text is refused at the first
such line, which has lost the blank at its end. So no text is read as a list with an empty password. -/
theorem written_entries_read_back (entries : List Entry) (writable : ∀ entry ∈ entries, entry.Writable) :
    (∀ entry ∈ entries, Entry.read entry.render = .ok entry) ∧
    (∀ text, Input.LaidOut (entries.map Entry.render) text →
      (parse text = .ok entries ↔ ∀ entry ∈ entries, entry.password ≠ []) ∧
      ∀ before entry after, entries = before ++ entry :: after →
        (∀ earlier ∈ before, earlier.password ≠ []) → entry.password = [] →
        parse text = Outcome.report
          (.invalidLine (before.length + 1) (EntryError.shape entry.policy).message)) ∧
    ∀ text others, parse text = .ok others → ∀ entry ∈ others, entry.Writable ∧ entry.password ≠ [] := by
  refine ⟨fun entry member => (writable entry member).read_render, fun text laid => ⟨⟨?_, ?_⟩, ?_⟩,
    fun text others => writable_of_parse⟩
  · exact fun read entry member => (writable_of_parse read entry member).2
  · exact fun some => parse_of_laidOut writable some laid
  · rintro before entry after rfl some empty
    exact parse_of_first_empty writable some empty laid

theorem written_entries_read_back_second_empty :
    (∀ entry ∈ [⟨1, 2 ^ 64 - 1, 'a', "abc".toList⟩, ⟨0, 9, 'z', []⟩], Entry.Writable entry) ∧
    Input.LaidOut ([⟨1, 2 ^ 64 - 1, 'a', "abc".toList⟩, ⟨0, 9, 'z', []⟩].map Entry.render)
      " 1-18446744073709551615 a: abc\r\n0-9 z: \n\n".toList ∧
    parse " 1-18446744073709551615 a: abc\r\n0-9 z: \n\n".toList = Outcome.report
      (.invalidLine 2 "expected `lo-hi c: password`, got \"0-9 z:\"") := by
  have writable : ∀ entry ∈ [⟨1, 2 ^ 64 - 1, 'a', "abc".toList⟩, ⟨0, 9, 'z', []⟩], Entry.Writable entry := by
    simp only [List.forall_mem_cons, List.not_mem_nil, false_implies, implies_true, and_true]
    exact ⟨⟨by decide, by decide, by decide, List.all_eq_true.mp (by decide)⟩,
      ⟨by decide, by decide, by decide, List.forall_mem_nil _⟩⟩
  have laid : Input.LaidOut ([⟨1, 2 ^ 64 - 1, 'a', "abc".toList⟩, ⟨0, 9, 'z', []⟩].map Entry.render)
      (" ".toList ++ "1-18446744073709551615 a: abc".toList ++ [] ++ "\r\n".toList ++
        ([] ++ "0-9 z: ".toList ++ [] ++ "\n".toList ++ "\n".toList)) :=
    .line (by decide) (by decide) (.inr rfl)
      (.line (by decide) (by decide) (.inl rfl) (.blank (trim_eq_nil_iff.mp rfl)))
  refine ⟨writable, laid, ?_⟩
  have refused := ((written_entries_read_back _ writable).2.1 _ laid).2 [⟨1, 2 ^ 64 - 1, 'a', "abc".toList⟩]
    ⟨0, 9, 'z', []⟩ [] rfl (by decide) rfl
  exact refused.trans (by decide +kernel)

/-- A line with an empty password is not read back when it is the whole text. -/
theorem not_parse_empty_password : ¬ ∀ entries : List Entry, (∀ entry ∈ entries, entry.Writable) →
    parse (entries.flatMap fun entry => entry.render ++ ['\n']) = .ok entries := by
  intro back
  have writable : ∀ entry ∈ [⟨0, 3, 'a', []⟩], Entry.Writable entry :=
    List.forall_mem_singleton.mpr ⟨by decide, by decide, by decide, List.forall_mem_nil _⟩
  exact absurd (back _ writable) (by decide +kernel)

end Texts

end PuzzleCalendar.PasswordPolicy
