import Mathlib.Data.Nat.Digits.Defs
import PuzzleCalendar.Number.Literal

/-! # Decimal literals

A run of ASCII digits has the value that its digits have by their places. It is read digit by digit, and
exactly when that value is within the bound: no beginning of the run is worth more than the whole. The
decimal text of an integer is read as that integer by every width that holds it.
-/

namespace PuzzleCalendar.Number

/-- An ASCII digit. -/
def IsDigit (char : Char) : Prop := '0' ≤ char ∧ char ≤ '9'

theorem IsDigit.toNat_lt {char : Char} (digit : IsDigit char) : char.toNat < 128 := by
  have greatest : char.toNat ≤ '9'.toNat := digit.2
  exact Nat.lt_of_le_of_lt greatest (by decide)

/-- The value of a run of digits. -/
def decimal (digits : Text) : Nat :=
  Nat.ofDigits 10 (digits.reverse.map fun char => char.toNat - '0'.toNat)

@[simp] theorem decimal_nil : decimal [] = 0 := rfl

theorem decimal_cons (char : Char) (digits : Text) : decimal (char :: digits) =
    (char.toNat - '0'.toNat) * 10 ^ digits.length + decimal digits := by
  simp only [decimal, List.reverse_cons, List.map_append, List.map_cons, List.map_nil,
    Nat.ofDigits_append, Nat.ofDigits_singleton, List.length_map, List.length_reverse]
  ring

theorem digit?_eq_some_iff {char : Char} {digit : Nat} :
    digit? char = some digit ↔ IsDigit char ∧ char.toNat - '0'.toNat = digit := by
  unfold digit? IsDigit
  split <;> simp [*]

theorem digit?_eq_none_iff {char : Char} : digit? char = none ↔ ¬ IsDigit char := by
  unfold digit? IsDigit
  split <;> simp [*]

variable {greatest start value : Nat} {overflow : LiteralError} {text : Text}

/-- Digits read onto a value. -/
theorem readDigits_eq_ok_iff (within : start ≤ greatest) :
    readDigits greatest overflow start text = .ok value ↔
      (∀ char ∈ text, IsDigit char) ∧ value = start * 10 ^ text.length + decimal text ∧
        value ≤ greatest := by
  induction text generalizing start with
  | nil =>
    simp only [readDigits, Except.ok.injEq, List.not_mem_nil, false_implies, implies_true, true_and,
      List.length_nil, Nat.pow_zero, Nat.mul_one, decimal_nil, Nat.add_zero]
    omega
  | cons char text ih =>
    rw [readDigits, List.forall_mem_cons]
    cases found : digit? char with
    | none => simp [digit?_eq_none_iff.mp found]
    | some digit =>
      obtain ⟨isDigit, rfl⟩ := digit?_eq_some_iff.mp found
      have shifted : start * 10 ^ (char :: text).length + decimal (char :: text) =
          (start * 10 + (char.toNat - '0'.toNat)) * 10 ^ text.length + decimal text := by
        rw [decimal_cons, List.length_cons, Nat.pow_succ]
        ring
      -- The whole run is worth at least as much as its beginning.
      have least : start * 10 + (char.toNat - '0'.toNat) ≤
          (start * 10 + (char.toNat - '0'.toNat)) * 10 ^ text.length :=
        Nat.le_mul_of_pos_right _ (by positivity)
      rw [shifted]
      simp only [isDigit, true_and]
      split
      · rename_i fits
        exact ih fits
      · rename_i large
        refine iff_of_false (by simp) ?_
        rintro ⟨-, rfl, small⟩
        omega

theorem readMagnitude_eq_ok_iff : readMagnitude greatest overflow text = .ok value ↔
    text ≠ [] ∧ (∀ char ∈ text, IsDigit char) ∧ value = decimal text ∧ value ≤ greatest := by
  cases text with
  | nil => simp [readMagnitude]
  | cons char text =>
    rw [readMagnitude, readDigits_eq_ok_iff (Nat.zero_le greatest)]
    · simp
    · nofun

/-- A run of digits without a sign is read when the bits hold its value. -/
theorem readUnsigned_eq_ok_iff_of_digits {bits : Nat} (nonempty : text ≠ [])
    (digits : ∀ char ∈ text, IsDigit char) :
    readUnsigned bits text = .ok value ↔ value = decimal text ∧ value < 2 ^ bits := by
  have unsigned : readUnsigned bits text = readMagnitude (2 ^ bits - 1) .tooLarge text := by
    rw [← Nat.one_shiftLeft]
    unfold readUnsigned
    split
    · contradiction
    · exact absurd (digits '+' List.mem_cons_self) (by unfold IsDigit; decide)
    · rfl
  have positive : 0 < 2 ^ bits := by positivity
  rw [unsigned, readMagnitude_eq_ok_iff, and_iff_right nonempty, and_iff_right digits]
  omega

/-- A literal without a minus sign is a run of digits, which a plus sign may come before. -/
theorem readUnsigned_eq_ok_iff {bits : Nat} : readUnsigned bits text = .ok value ↔
    ∃ digits, (text = digits ∨ text = '+' :: digits) ∧ digits ≠ [] ∧ (∀ char ∈ digits, IsDigit char) ∧
      value = decimal digits ∧ value < 2 ^ bits := by
  have signless {digits : Text} (isDigits : ∀ char ∈ digits, IsDigit char) (rest : Text) :
      digits ≠ '+' :: rest := by
    rintro rfl
    exact absurd (isDigits '+' List.mem_cons_self) (by unfold IsDigit; decide)
  have bound (number : Nat) : number ≤ 1 <<< bits - 1 ↔ number < 2 ^ bits := by
    have positive : 0 < 2 ^ bits := by positivity
    rw [Nat.one_shiftLeft]
    omega
  unfold readUnsigned
  split
  · refine iff_of_false (by simp) ?_
    rintro ⟨_, rfl | same, nonempty, -⟩
    · exact nonempty rfl
    · exact absurd same (by simp)
  · rename_i rest
    rw [readMagnitude_eq_ok_iff, bound]
    constructor
    · exact fun read => ⟨rest, .inr rfl, read⟩
    · rintro ⟨digits, same | same, read⟩
      · exact absurd same.symm (signless read.2.1 rest)
      · obtain ⟨-, rfl⟩ := List.cons_eq_cons.mp same
        exact read
  · rename_i other
    rw [readMagnitude_eq_ok_iff, bound]
    constructor
    · exact fun read => ⟨text, .inl rfl, read⟩
    · rintro ⟨digits, rfl | same, read⟩
      · exact read
      · exact absurd same (other digits)

theorem decimal_lt {digits : Text} (isDigits : ∀ char ∈ digits, IsDigit char) :
    decimal digits < 10 ^ digits.length := by
  induction digits with
  | nil => exact Nat.one_pos
  | cons char digits ih =>
    obtain ⟨⟨-, greatest⟩, isDigits⟩ := List.forall_mem_cons.mp isDigits
    have greatest : char.toNat ≤ 57 := greatest
    have zero : '0'.toNat = 48 := rfl
    have first : char.toNat - '0'.toNat ≤ 9 := by omega
    rw [decimal_cons, List.length_cons, Nat.pow_succ]
    nlinarith [ih isDigits, Nat.mul_le_mul_right (10 ^ digits.length) first]

/-- The decimal text of an integer. -/
def literal : Int → Text
  | .ofNat value => Nat.toDigits 10 value
  | .negSucc value => '-' :: Nat.toDigits 10 (value + 1)

theorem decimal_eq_ofDigitChars (digits : Text) : decimal digits = Nat.ofDigitChars 10 digits 0 := by
  induction digits with
  | nil => rfl
  | cons char digits ih =>
    rw [decimal_cons, Nat.ofDigitChars_cons, Nat.ofDigitChars_eq_ofDigitChars_zero, ih]
    ring

theorem decimal_toDigits (value : Nat) : decimal (Nat.toDigits 10 value) = value := by
  rw [decimal_eq_ofDigitChars, Nat.ofDigitChars_ten_toDigits]

theorem isDigit_of_mem_toDigits {char : Char} (member : char ∈ Nat.toDigits 10 value) : IsDigit char := by
  have isDigit := Nat.isDigit_of_mem_toDigits (by decide) (by decide) member
  simpa [Char.isDigit, IsDigit, Char.le_def] using isDigit

theorem readMagnitude_toDigits {number : Nat} :
    readMagnitude greatest overflow (Nat.toDigits 10 number) = .ok value ↔
      value = number ∧ number ≤ greatest := by
  rw [readMagnitude_eq_ok_iff, decimal_toDigits, and_iff_right Nat.toDigits_ne_nil,
    and_iff_right fun char => isDigit_of_mem_toDigits]
  omega

theorem readUnsigned_toDigits {bits number : Nat} (held : number < 2 ^ bits) :
    readUnsigned bits (Nat.toDigits 10 number) = .ok number := by
  rw [readUnsigned_eq_ok_iff_of_digits Nat.toDigits_ne_nil fun char => isDigit_of_mem_toDigits,
    decimal_toDigits]
  exact ⟨rfl, held⟩

/-- A text that starts with a digit is a literal without a sign. -/
theorem readSigned_of_digits {bits : Nat} (nonempty : text ≠ []) (digits : ∀ char ∈ text, IsDigit char) :
    readSigned bits text = (readMagnitude (2 ^ (bits - 1) - 1) .tooLarge text).map Int.ofNat := by
  rw [← Nat.one_shiftLeft]
  unfold readSigned
  split
  · contradiction
  · exact absurd (digits '+' List.mem_cons_self) (by unfold IsDigit; decide)
  · exact absurd (digits '-' List.mem_cons_self) (by unfold IsDigit; decide)
  · rfl

theorem readSigned_literal {bits : Nat} {number : Int}
    (held : -2 ^ (bits - 1) ≤ number ∧ number < 2 ^ (bits - 1)) :
    readSigned bits (literal number) = .ok number := by
  have bound : (2 : Int) ^ (bits - 1) = ((2 ^ (bits - 1) : Nat) : Int) := by push_cast; rfl
  rw [bound] at held
  cases number with
  | ofNat number =>
    have small : number ≤ 2 ^ (bits - 1) - 1 := by
      have less := Int.ofNat_lt.mp held.2
      omega
    rw [literal, readSigned_of_digits Nat.toDigits_ne_nil fun char => isDigit_of_mem_toDigits,
      readMagnitude_toDigits.mpr ⟨rfl, small⟩]
    rfl
  | negSucc number =>
    have small : number + 1 ≤ 1 <<< (bits - 1) := by
      rw [Nat.one_shiftLeft]
      omega
    have read : readMagnitude (1 <<< (bits - 1)) .tooSmall (Nat.toDigits 10 (number + 1)) =
        .ok (number + 1) := readMagnitude_toDigits.mpr ⟨rfl, small⟩
    rw [literal, readSigned, read]
    rfl

end PuzzleCalendar.Number
