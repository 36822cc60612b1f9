import PuzzleCalendar.Text.Basic

/-! # Slices

A slice of a text stands between two byte offsets. There is one only when both are between characters.
-/

namespace PuzzleCalendar.Text

/-- The text from a byte offset on. -/
def dropBytes? : Nat → Text → Option Text
  | 0, text => some text
  | _ + 1, [] => none
  | offset + 1, char :: rest =>
    if char.utf8Size ≤ offset + 1 then dropBytes? (offset + 1 - char.utf8Size) rest else none

/-- The text up to a byte offset. -/
def takeBytes? : Nat → Text → Option Text
  | 0, _ => some []
  | _ + 1, [] => none
  | offset + 1, char :: rest =>
    if char.utf8Size ≤ offset + 1 then
      (takeBytes? (offset + 1 - char.utf8Size) rest).map (char :: ·)
    else none

/-- The text between two byte offsets. -/
def slice? (text : Text) (start stop : Nat) : Option Text :=
  if start ≤ stop then (dropBytes? start text).bind (takeBytes? (stop - start)) else none

theorem dropBytes?_byteLength (before after : Text) :
    dropBytes? (byteLength before) (before ++ after) = some after := by
  induction before with
  | nil => rw [byteLength_nil, List.nil_append, dropBytes?]
  | cons char before ih =>
    have positive := char.utf8Size_pos
    obtain ⟨offset, size⟩ : ∃ offset, byteLength (char :: before) = offset + 1 :=
      ⟨byteLength (char :: before) - 1, by rw [byteLength_cons]; omega⟩
    rw [size, List.cons_append, dropBytes?, ← size, byteLength_cons, if_pos (Nat.le_add_right _ _),
      Nat.add_sub_cancel_left, ih]

theorem takeBytes?_byteLength (before after : Text) :
    takeBytes? (byteLength before) (before ++ after) = some before := by
  induction before with
  | nil => rw [byteLength_nil, takeBytes?]
  | cons char before ih =>
    have positive := char.utf8Size_pos
    obtain ⟨offset, size⟩ : ∃ offset, byteLength (char :: before) = offset + 1 :=
      ⟨byteLength (char :: before) - 1, by rw [byteLength_cons]; omega⟩
    rw [size, List.cons_append, takeBytes?, ← size, byteLength_cons, if_pos (Nat.le_add_right _ _),
      Nat.add_sub_cancel_left, ih, Option.map_some]

/-- What stands between two other texts is the slice between their offsets. -/
theorem slice?_append (before middle after : Text) :
    slice? (before ++ (middle ++ after)) (byteLength before) (byteLength before + byteLength middle) =
      some middle := by
  rw [slice?, if_pos (Nat.le_add_right _ _), dropBytes?_byteLength, Option.bind_some,
    Nat.add_sub_cancel_left, takeBytes?_byteLength]

@[simp] theorem toNat_ofByte (byte : UInt8) : (ofByte byte).toNat = byte.toNat := by
  have valid : byte.toNat.isValidChar := .inl (by have := byte.toNat_lt; omega)
  rw [ofByte, Char.ofNat, dif_pos valid]
  rfl

/-- A character of seven bits is its only byte. -/
theorem utf8EncodeChar_of_lt {char : Char} (small : char.toNat < 128) :
    String.utf8EncodeChar char = [UInt8.ofNat char.toNat] := by
  have low : char.val.toNat ≤ 127 := Nat.le_of_lt_succ small
  rw [String.utf8EncodeChar, if_pos low]
  rfl

theorem utf8Size_of_lt {char : Char} (small : char.toNat < 128) : char.utf8Size = 1 := by
  rw [← String.length_utf8EncodeChar, utf8EncodeChar_of_lt small, List.length_singleton]

/-- Characters of seven bits are as many as their bytes. -/
theorem byteLength_eq_length {text : Text} (small : ∀ char ∈ text, char.toNat < 128) :
    byteLength text = text.length := by
  induction text with
  | nil => rfl
  | cons char text ih =>
    obtain ⟨first, others⟩ := List.forall_mem_cons.mp small
    rw [byteLength_cons, utf8Size_of_lt first, ih others, List.length_cons, Nat.add_comm]

theorem ofByte_ofNat_toNat {char : Char} (small : char.toNat < 128) :
    ofByte (UInt8.ofNat char.toNat) = char := by
  rw [ofByte, UInt8.toNat_ofNat_of_lt' (by rw [UInt8.size]; omega), Char.ofNat_toNat]

/-- The first byte of any other character has eight bits. -/
theorem exists_utf8EncodeChar_of_le {char : Char} (large : 128 ≤ char.toNat) :
    ∃ byte more, String.utf8EncodeChar char = byte :: more ∧ 128 ≤ (ofByte byte).toNat := by
  have high : ¬ char.val.toNat ≤ 127 := Nat.not_le_of_lt large
  rw [String.utf8EncodeChar, if_neg high]
  split
  · exact ⟨_, _, rfl, by simp; omega⟩
  · split
    · exact ⟨_, _, rfl, by simp; omega⟩
    · exact ⟨_, _, rfl, by simp; omega⟩

end PuzzleCalendar.Text
