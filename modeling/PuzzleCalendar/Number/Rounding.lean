/-! # Rounding

A fraction is rounded to the nearest integer, and a half goes to the even neighbour. The same rule
rounds a fraction to the 53 significant bits of a binary64 number, and a number to two decimal places.
-/

namespace PuzzleCalendar.Number

/-- The integer nearest to `num / den`; of two such integers the even one. -/
def roundHalfEven (num den : Nat) : Nat :=
  let floor := num / den
  let rest := num % den
  if 2 * rest < den then floor
  else if 2 * rest = den then floor + floor % 2
  else floor + 1

/-- The rounded value is at most half a unit above the fraction. -/
theorem roundHalfEven_le {num den : Nat} (positive : 0 < den) :
    2 * (roundHalfEven num den * den) ≤ 2 * num + den := by
  have split := Nat.div_add_mod num den
  have bound := Nat.mod_lt num positive
  have parity := Nat.mod_two_eq_zero_or_one (num / den)
  have order := Nat.mul_comm den (num / den)
  unfold roundHalfEven
  simp only
  split
  · omega
  · split
    · rcases parity with even | odd
      · rw [even, Nat.add_zero]
        omega
      · rw [odd, Nat.add_mul]
        omega
    · rw [Nat.add_mul]
      omega

/-- The rounded value is at most half a unit below the fraction. -/
theorem le_roundHalfEven {num den : Nat} (positive : 0 < den) :
    2 * num ≤ 2 * (roundHalfEven num den * den) + den := by
  have split := Nat.div_add_mod num den
  have bound := Nat.mod_lt num positive
  have parity := Nat.mod_two_eq_zero_or_one (num / den)
  have order := Nat.mul_comm den (num / den)
  unfold roundHalfEven
  simp only
  split
  · omega
  · split
    · rcases parity with even | odd
      · rw [even, Nat.add_zero]
        omega
      · rw [odd, Nat.add_mul]
        omega
    · rw [Nat.add_mul]
      omega

/-- A fraction of natural numbers. -/
structure Fraction where
  num : Nat
  den : Nat
deriving DecidableEq, Repr

/-- A fraction times a power of two. -/
def Fraction.shifted (fraction : Fraction) (exponent : Int) : Fraction :=
  ⟨fraction.num <<< exponent.toNat, fraction.den <<< (-exponent).toNat⟩

/-- The exponent of the greatest power of two that is not above a positive fraction. -/
def Fraction.exponent (fraction : Fraction) : Int :=
  let guess : Int := (Nat.log2 fraction.num : Int) - Nat.log2 fraction.den
  let scaled := fraction.shifted (-guess)
  if scaled.num < scaled.den then guess - 1 else guess

/-- The binary64 number nearest to a fraction; of two such numbers the one with an even last bit. The
range of exponents is not bounded. -/
def Fraction.toBinary64 (fraction : Fraction) : Fraction :=
  if fraction.num = 0 then ⟨0, 1⟩
  else
    let scale := 52 - fraction.exponent
    let scaled := fraction.shifted scale
    Fraction.shifted ⟨roundHalfEven scaled.num scaled.den, 1⟩ (-scale)

/-- A number in decimal with at least two digits. -/
def twoDigits (number : Nat) : String :=
  if number < 10 then s!"0{number}" else toString number

/-- A fraction with two decimal places. -/
def Fraction.toTwoPlaces (fraction : Fraction) : String :=
  let hundredths := roundHalfEven (100 * fraction.num) fraction.den
  s!"{hundredths / 100}.{twoDigits (hundredths % 100)}"

end PuzzleCalendar.Number
