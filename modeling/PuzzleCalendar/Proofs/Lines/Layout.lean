import PuzzleCalendar.Proofs.Lines.Trimmed

/-! # Layouts of lines

The same lines can be laid out in many ways: blanks may stand on both sides of a line, a line feed may have
a carriage return before it or be missing after the last line, and blank lines may follow. Records that are
written one a line are read back from every layout of them.
-/

namespace PuzzleCalendar.Input

open Text

/-- Blanks that end no line. -/
def Margin (pad : Text) : Prop := ∀ char ∈ pad, isBlank char = true ∧ char ≠ '\n'

instance (pad : Text) : Decidable (Margin pad) :=
  List.decidableBAll (fun char => isBlank char = true ∧ char ≠ '\n') pad

/-- A text has the lines one below the other, with margins around them and blank lines after them. -/
inductive LaidOut : List Text → Text → Prop
  | blank {rest : Text} (blank : ∀ char ∈ rest, isBlank char = true) : LaidOut [] rest
  | last {before line after : Text} (left : Margin before) (right : Margin after) :
      LaidOut [line] (before ++ line ++ after)
  | line {before line after ending rest : Text} {lines : List Text} (left : Margin before)
      (right : Margin after) (ends : ending = ['\n'] ∨ ending = ['\r', '\n']) (below : LaidOut lines rest) :
      LaidOut (line :: lines) (before ++ line ++ after ++ ending ++ rest)

theorem trim_of_solid {text : Text} (solid : ∀ char ∈ text, isBlank char = false) : trim text = text := by
  cases text with
  | nil => rfl
  | cons char text =>
    have last : (char :: text).rdropWhile isBlank = char :: text := by
      rw [List.rdropWhile_eq_self_iff]
      intro some
      rw [solid _ (List.getLast_mem some)]
      exact Bool.false_ne_true
    rw [trim, trimStart_cons (solid char List.mem_cons_self)]
    exact last

/-- The visible characters of ASCII are not blank. -/
theorem isBlank_of_visible {char : Char} (above : '!' ≤ char) (below : char ≤ '~') : isBlank char = false := by
  have above : 33 ≤ char.toNat := above
  have below : char.toNat ≤ 126 := below
  simp only [isBlank, CharRanges.contains, blanks, List.any_cons, List.any_nil, Bool.or_false,
    Bool.or_eq_false_iff, Bool.and_eq_false_imp, decide_eq_true_eq, decide_eq_false_iff_not]
  omega

/-- Trimming takes nothing off a text between two characters that are not blank. -/
theorem trim_of_solid_ends {first last : Char} (starts : isBlank first = false) (ends : isBlank last = false)
    (between : Text) : trim (first :: (between ++ [last])) = first :: (between ++ [last]) := by
  rw [trim_cons starts, trimEnd_concat ends]

section Margins

variable {before line after : Text}

theorem Margin.isBlank {pad : Text} (margin : Margin pad) : ∀ char ∈ pad, Text.isBlank char = true :=
  fun char member => (margin char member).1

theorem Margin.newline_notMem {pad : Text} (margin : Margin pad) : '\n' ∉ pad :=
  fun member => (margin '\n' member).2 rfl

theorem Margin.concat_return {pad : Text} (margin : Margin pad) : Margin (pad ++ ['\r']) := by
  intro char member
  obtain member | member := List.mem_append.mp member
  · exact margin char member
  · rw [List.mem_singleton.mp member]
    decide

theorem trimmedLines_of_margins (left : Margin before) (whole : '\n' ∉ line) (right : Margin after) :
    trimmedLines (before ++ line ++ after) = [trim line] := by
  have absent : '\n' ∉ before ++ line ++ after := by
    simp only [List.mem_append, not_or]
    exact ⟨⟨left.newline_notMem, whole⟩, right.newline_notMem⟩
  rw [trimmedLines_of_notMem absent, trim_append_blanks right.isBlank, trim_blanks_append left.isBlank]

end Margins

theorem trimmedLines_of_blank {text : Text} (blank : ∀ char ∈ text, isBlank char = true) :
    ∀ line ∈ trimmedLines text, line = [] := by
  induction text with
  | nil => simp [trimmedLines, splitAll, trim, trimStart, trimEnd]
  | cons char text ih =>
    obtain ⟨first, blank⟩ := List.forall_mem_cons.mp blank
    by_cases newline : char = '\n'
    · rw [newline, trimmedLines_cons_newline]
      exact List.forall_mem_cons.mpr ⟨rfl, ih blank⟩
    · rw [trimmedLines_cons_blank first newline]
      exact ih blank

/-- Lines that are laid out are the lines of the text, up to blank ones at its end. -/
theorem LaidOut.trimmedLines_eq {lines : List Text} {text : Text} (laid : LaidOut lines text)
    (whole : ∀ line ∈ lines, '\n' ∉ line) :
    ∃ blanks, trimmedLines text = lines.map trim ++ blanks ∧ ∀ line ∈ blanks, line = [] := by
  induction laid with
  | blank blank => exact ⟨_, rfl, trimmedLines_of_blank blank⟩
  | last left right =>
    refine ⟨[], ?_, List.forall_mem_nil _⟩
    exact trimmedLines_of_margins left (whole _ List.mem_cons_self) right
  | @line before line after ending rest lines left right ends below ih =>
    obtain ⟨first, others⟩ := List.forall_mem_cons.mp whole
    obtain ⟨blanks, read, blank⟩ := ih others
    refine ⟨blanks, ?_, blank⟩
    obtain rfl | rfl := ends
    · rw [List.append_assoc, List.singleton_append, trimmedLines_append_newline,
        trimmedLines_of_margins left first right, read]
      rfl
    · -- The carriage return is one more blank of the right margin.
      have returned : before ++ line ++ after ++ ['\r', '\n'] ++ rest =
          before ++ line ++ (after ++ ['\r']) ++ '\n' :: rest := by simp
      rw [returned, trimmedLines_append_newline, trimmedLines_of_margins left first right.concat_return, read]
      rfl

theorem rdropWhile_append_of_blanks {lines blanks : List Text} (filled : [] ∉ lines)
    (blank : ∀ line ∈ blanks, line = []) : (lines ++ blanks).rdropWhile List.isEmpty = lines := by
  have passed : ∀ line ∈ blanks.reverse, line.isEmpty = true := by
    intro line member
    rw [blank line (List.mem_reverse.mp member)]
    rfl
  have kept : lines.rdropWhile List.isEmpty = lines := by
    rw [List.rdropWhile_eq_self_iff]
    intro some last
    exact filled (List.isEmpty_iff.mp last ▸ List.getLast_mem some)
  rw [List.rdropWhile, List.reverse_append, List.dropWhile_append_of_pos passed]
  exact kept

/-- Lines that are not blank come back from their layout, trimmed. -/
theorem LaidOut.recordLines_eq {lines : List Text} {text : Text} (laid : LaidOut lines text)
    (whole : ∀ line ∈ lines, '\n' ∉ line) (filled : ∀ line ∈ lines, trim line ≠ []) :
    recordLines text = lines.map trim := by
  obtain ⟨blanks, split, blank⟩ := laid.trimmedLines_eq whole
  rw [Input.recordLines_eq, split, rdropWhile_append_of_blanks _ blank]
  intro member
  obtain ⟨line, listed, none⟩ := List.mem_map.mp member
  exact filled line listed none

/-- Lines without a blank come back as they are. -/
theorem LaidOut.recordLines_of_solid {lines : List Text} {text : Text} (laid : LaidOut lines text)
    (solid : ∀ line ∈ lines, line ≠ [] ∧ ∀ char ∈ line, isBlank char = false) : recordLines text = lines := by
  have trimmed : ∀ line ∈ lines, trim line = line := fun line member => trim_of_solid (solid line member).2
  have whole : ∀ line ∈ lines, '\n' ∉ line :=
    fun line member newline => ne_newline ((solid line member).2 '\n' newline) rfl
  rw [laid.recordLines_eq whole fun line member => (trimmed line member).symm ▸ (solid line member).1]
  exact (List.map_congr_left trimmed).trans (List.map_id lines)

theorem trim_of_mem_recordLines {text line : Text} (member : line ∈ recordLines text) : trim line = line := by
  obtain ⟨piece, -, rfl⟩ := List.mem_map.mp member
  exact trim_trim piece

section Records

variable {α : Type} {read : Text → Except String α} {records : List α}

theorem collect_append_of_error {before after : List Text} {line : Text} {detail : String} {number : Nat}
    (passed : ∀ earlier ∈ before, ∃ record, read earlier = .ok record) (refused : read line = .error detail) :
    collect (m := Id) (fun line => pure (read line)) number (before ++ line :: after) =
      .error (.invalidLine (number + before.length) detail) := by
  induction before generalizing number with
  | nil =>
    rw [List.nil_append, collect_cons, refused]
    rfl
  | cons earlier before ih =>
    obtain ⟨⟨record, first⟩, passed⟩ := List.forall_mem_cons.mp passed
    rw [List.cons_append, collect_cons, first, ih passed, List.length_cons, Nat.add_right_comm, Nat.add_assoc]
    rfl

/-- The first line that is refused is the one that the error names. -/
theorem readLines_of_first_refused {before after : List Text} {line text : Text} {detail : String}
    (split : recordLines text = before ++ line :: after)
    (passed : ∀ earlier ∈ before, ∃ record, read earlier = .ok record) (refused : read line = .error detail) :
    readLines read text = .error (.invalidLine (before.length + 1) detail) := by
  rw [readLines, readLinesM, split, Nat.add_comm]
  exact collect_append_of_error passed refused

/-- Records are read back from the lines that they are written on. -/
theorem readLines_of_laidOut {write : α → Text} {text : Text} (laid : LaidOut (records.map write) text)
    (back : ∀ record ∈ records, '\n' ∉ write record ∧ trim (write record) ≠ [] ∧
      read (trim (write record)) = .ok record) : readLines read text = .ok records := by
  have lines : recordLines text = (records.map write).map trim := by
    apply laid.recordLines_eq
    · exact List.forall_mem_map.mpr fun record member => (back record member).1
    · exact List.forall_mem_map.mpr fun record member => (back record member).2.1
  rw [readLines_eq_ok_iff, lines, List.map_map, List.map_map]
  exact List.map_congr_left fun record member => (back record member).2.2

/-- Trimming takes nothing off records that are written without a blank. -/
theorem readLines_of_solid {write : α → Text} {text : Text} (laid : LaidOut (records.map write) text)
    (solid : ∀ record ∈ records, write record ≠ [] ∧ ∀ char ∈ write record, isBlank char = false)
    (back : ∀ record ∈ records, read (write record) = .ok record) : readLines read text = .ok records := by
  apply readLines_of_laidOut laid
  intro record member
  obtain ⟨some, whole⟩ := solid record member
  rw [trim_of_solid whole]
  exact ⟨fun newline => ne_newline (whole '\n' newline) rfl, some, back record member⟩

end Records

end PuzzleCalendar.Input
