import PuzzleCalendar.Outcome
import PuzzleCalendar.Text.Basic

/-! # Integer literals

A literal is an optional sign and at least one ASCII digit. A minus sign belongs to signed literals
only. Digits are read from the left, and the first one that is no digit, or that takes the value out
of its width, decides the error.
-/

namespace PuzzleCalendar.Number

/-- Why a text is no literal of the wanted width. -/
inductive LiteralError
  | empty
  | invalidDigit
  | tooLarge
  | tooSmall
deriving DecidableEq, Repr

/-- The sentence that reports a literal error. -/
def LiteralError.message : LiteralError → String
  | empty => "cannot parse integer from empty string"
  | invalidDigit => "invalid digit found in string"
  | tooLarge => "number too large to fit in target type"
  | tooSmall => "number too small to fit in target type"

/-- The value of an ASCII digit. -/
def digit? (char : Char) : Option Nat :=
  if '0' ≤ char ∧ char ≤ '9' then some (char.toNat - '0'.toNat) else none

/-- Reads digits onto `value`; a value above `greatest` is the error `overflow`. -/
def readDigits (greatest : Nat) (overflow : LiteralError) : Nat → Text → Except LiteralError Nat
  | value, [] => .ok value
  | value, char :: text =>
    match digit? char with
    | none => .error .invalidDigit
    | some digit =>
      if value * 10 + digit ≤ greatest then
        readDigits greatest overflow (value * 10 + digit) text
      else .error overflow

/-- Reads at least one digit. -/
def readMagnitude (greatest : Nat) (overflow : LiteralError) : Text → Except LiteralError Nat
  | [] => .error .invalidDigit
  | text => readDigits greatest overflow 0 text

/-- Reads a literal without a minus sign that `bits` bits hold. -/
def readUnsigned (bits : Nat) : Text → Except LiteralError Nat
  | [] => .error .empty
  | '+' :: text => readMagnitude (1 <<< bits - 1) .tooLarge text
  | text => readMagnitude (1 <<< bits - 1) .tooLarge text

/-- Reads a literal that `bits` bits with a sign hold. -/
def readSigned (bits : Nat) : Text → Except LiteralError Int
  | [] => .error .empty
  | '+' :: text => (readMagnitude (1 <<< (bits - 1) - 1) .tooLarge text).map Int.ofNat
  | '-' :: text => (readMagnitude (1 <<< (bits - 1)) .tooSmall text).map fun value => -(value : Int)
  | text => (readMagnitude (1 <<< (bits - 1) - 1) .tooLarge text).map Int.ofNat

/-- What is read never exceeds the bound. -/
theorem readDigits_le {greatest : Nat} {overflow : LiteralError} {start value : Nat} {text : Text}
    (within : start ≤ greatest) (read : readDigits greatest overflow start text = .ok value) :
    value ≤ greatest := by
  induction text generalizing start with
  | nil =>
    have same : start = value := by simpa [readDigits] using read
    omega
  | cons char text ih =>
    unfold readDigits at read
    split at read
    · simp at read
    · split at read
      · rename_i fits
        exact ih fits read
      · simp at read

theorem readMagnitude_le {greatest : Nat} {overflow : LiteralError} {value : Nat} {text : Text}
    (read : readMagnitude greatest overflow text = .ok value) : value ≤ greatest := by
  unfold readMagnitude at read
  split at read
  · contradiction
  · exact readDigits_le (Nat.zero_le greatest) read

/-- A literal without a sign is a number of its width. -/
theorem readUnsigned_le {bits value : Nat} {text : Text} (read : readUnsigned bits text = .ok value) :
    value ≤ 1 <<< bits - 1 := by
  unfold readUnsigned at read
  split at read
  · contradiction
  · exact readMagnitude_le read
  · exact readMagnitude_le read

/-- A signed literal is an integer of its width. -/
theorem readSigned_bounds {value : Int} {text : Text} (read : readSigned 64 text = .ok value) :
    -9223372036854775808 ≤ value ∧ value < 9223372036854775808 := by
  unfold readSigned at read
  split at read
  · contradiction
  · obtain ⟨magnitude, digits, rfl⟩ := map_eq_ok_iff.mp read
    have bound := readMagnitude_le digits
    simp only [Int.ofNat_eq_natCast]
    omega
  · obtain ⟨_, lifted, rfl⟩ := map_eq_ok_iff.mp read
    obtain ⟨magnitude, digits, same⟩ := bind_eq_ok_iff.mp lifted
    obtain rfl := Except.ok.inj same
    have bound := readMagnitude_le digits
    omega
  · obtain ⟨magnitude, digits, rfl⟩ := map_eq_ok_iff.mp read
    have bound := readMagnitude_le digits
    simp only [Int.ofNat_eq_natCast]
    omega

end PuzzleCalendar.Number
