import PuzzleCalendar.Number.Total
import PuzzleCalendar.Text.CharRanges

/-! # Text

A text is a list of characters. Some rules of the puzzles count or look at the bytes of its UTF-8
form instead, and a byte that a message shows stands for the character with that code point.
-/

namespace PuzzleCalendar

/-- A run of characters. -/
abbrev Text := List Char

namespace Text

/-- The UTF-8 bytes of a text. -/
def bytes (text : Text) : List UInt8 :=
  text.flatMap String.utf8EncodeChar

/-- The number of UTF-8 bytes of a text. -/
def byteLength (text : Text) : Nat :=
  Number.total (text.map Char.utf8Size)

/-- The character whose code point is a byte. -/
def ofByte (byte : UInt8) : Char :=
  Char.ofNat byte.toNat

@[simp] theorem byteLength_nil : byteLength [] = 0 := rfl

@[simp] theorem byteLength_cons (char : Char) (text : Text) :
    byteLength (char :: text) = char.utf8Size + byteLength text := by
  simp [byteLength]

@[simp] theorem byteLength_append (first second : Text) :
    byteLength (first ++ second) = byteLength first + byteLength second := by
  simp [byteLength]

@[simp] theorem bytes_nil : bytes [] = [] := rfl

@[simp] theorem bytes_cons (char : Char) (text : Text) :
    bytes (char :: text) = String.utf8EncodeChar char ++ bytes text := by
  simp [bytes]

/-- The rest of a text after `lead`, when it starts with it. -/
def dropLead? : Text → Text → Option Text
  | [], text => some text
  | _ :: _, [] => none
  | expected :: lead, char :: text => if expected = char then dropLead? lead text else none

theorem dropLead?_eq_some_iff {lead text rest : Text} :
    dropLead? lead text = some rest ↔ text = lead ++ rest := by
  induction lead generalizing text with
  | nil => simp [dropLead?]
  | cons expected lead ih =>
    cases text with
    | nil => simp [dropLead?]
    | cons char text =>
      by_cases same : expected = char
      · simp [dropLead?, same, ih]
      · simp [dropLead?, same, Ne.symm same]

/-- The rest of a text before `tail`, when it ends with it. -/
def dropTail? (tail text : Text) : Option Text :=
  (dropLead? tail.reverse text.reverse).map List.reverse

theorem dropTail?_eq_some_iff {tail text rest : Text} :
    dropTail? tail text = some rest ↔ text = rest ++ tail := by
  simp only [dropTail?, Option.map_eq_some_iff, dropLead?_eq_some_iff]
  constructor
  · rintro ⟨reversed, same, rfl⟩
    simpa using congrArg List.reverse same
  · rintro rfl
    exact ⟨rest.reverse, by simp, by simp⟩

/-- What stands before and after the first `mark`, when there is one. -/
def splitOnce? (mark : Char) (text : Text) : Option (Text × Text) :=
  match text.dropWhile (· != mark) with
  | [] => none
  | _ :: rest => some (text.takeWhile (· != mark), rest)

theorem splitOnce?_eq_some_iff {mark : Char} {text before after : Text} :
    splitOnce? mark text = some (before, after) ↔ text = before ++ mark :: after ∧ mark ∉ before := by
  unfold splitOnce?
  constructor
  · intro found
    split at found
    · contradiction
    · rename_i char rest split
      obtain ⟨rfl, rfl⟩ := Prod.mk.inj (Option.some.inj found)
      have first := List.head?_dropWhile_not (· != mark) text
      rw [split] at first
      obtain rfl : char = mark := by simpa using first
      refine ⟨by rw [← split, List.takeWhile_append_dropWhile], fun member => ?_⟩
      have other := List.all_eq_true.mp List.all_takeWhile char member
      simp at other
  · rintro ⟨rfl, absent⟩
    have passed : ∀ char ∈ before, (char != mark) = true := by
      intro char member
      simp only [bne_iff_ne]
      rintro rfl
      exact absent member
    simp [List.dropWhile_append_of_pos passed, List.takeWhile_append_of_pos passed]

/-- The pieces between the marks; a text without one is a single piece. -/
def splitAll (mark : Char) : Text → List Text
  | [] => [[]]
  | char :: text =>
    if char = mark then [] :: splitAll mark text
    else
      match splitAll mark text with
      | [] => [[char]]
      | piece :: pieces => (char :: piece) :: pieces

theorem splitAll_ne_nil (mark : Char) (text : Text) : splitAll mark text ≠ [] := by
  induction text with
  | nil => simp [splitAll]
  | cons char text ih =>
    by_cases same : char = mark
    · simp [splitAll, same]
    · cases pieces : splitAll mark text with
      | nil => exact absurd pieces ih
      | cons piece rest => simp [splitAll, same, pieces]

/-- What stands before the first copy of `mark` and after it, when there is one. -/
def splitOnceAt? (mark : Text) : Text → Option (Text × Text)
  | [] => if mark.isEmpty then some ([], []) else none
  | char :: text =>
    match dropLead? mark (char :: text) with
    | some rest => some ([], rest)
    | none => (splitOnceAt? mark text).map fun (before, after) => (char :: before, after)

/-- The pieces between copies of `mark`, taken from the left. -/
def splitAllAt (mark text : Text) : List Text :=
  match splitOnceAt? mark text with
  | none => [text]
  | some (before, after) =>
    if after.length < text.length then before :: splitAllAt mark after else [text]
termination_by text.length

/-- The order of a dictionary, by code points. -/
def precedes : Text → Text → Bool
  | [], _ => true
  | _ :: _, [] => false
  | first :: rest, second :: others =>
    if first = second then precedes rest others else first < second

theorem precedes_total (one two : Text) : (precedes one two || precedes two one) = true := by
  fun_induction precedes one two with
  | case1 => simp
  | case2 => simp [precedes]
  | case3 first rest others ih => simpa [precedes] using ih
  | case4 first rest second others different =>
    simp only [precedes, Ne.symm different, if_false]
    grind

theorem precedes_antisymm {one two : Text} (forth : precedes one two = true)
    (back : precedes two one = true) : one = two := by
  fun_induction precedes one two with
  | case1 other =>
    cases other with
    | nil => rfl
    | cons => simp [precedes] at back
  | case2 => simp at forth
  | case3 first rest others ih => rw [ih forth (by simpa [precedes] using back)]
  | case4 first rest second others different =>
    simp only [precedes, Ne.symm different, if_false] at back
    grind

theorem precedes_trans {one two three : Text} (forth : precedes one two = true)
    (further : precedes two three = true) : precedes one three = true := by
  induction one generalizing two three with
  | nil => simp [precedes]
  | cons first rest ih =>
    cases two with
    | nil => simp [precedes] at forth
    | cons second others =>
      cases three with
      | nil => simp [precedes] at further
      | cons third more =>
        simp only [precedes] at forth further ⊢
        split at forth <;> split at further <;> split <;> grind

/-- The first byte of a character, as the character that it stands for. -/
def leadByte (char : Char) : Char :=
  match String.utf8EncodeChar char with
  | byte :: _ => ofByte byte
  | [] => char

end Text

end PuzzleCalendar
