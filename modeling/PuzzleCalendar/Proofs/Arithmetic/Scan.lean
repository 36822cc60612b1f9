import PuzzleCalendar.Proofs.Number.Decimal
import PuzzleCalendar.Puzzles.Arithmetic

/-! # Scanning by characters

A line is scanned byte by byte, and a number is cut out of it between two byte offsets. Characters of
seven bits are their own bytes, and the first byte of any other character starts no token. So a scan that
starts between two characters goes on between two characters, and can be followed by characters: a
space, the digits of a number, or the sign of another token.
-/

namespace PuzzleCalendar.Arithmetic

open Text

theorem isDigit_iff {char : Char} : isDigit char = true ↔ '0' ≤ char ∧ char ≤ '9' := by
  simp [isDigit, Number.digit?]

theorem toNat_lt_of_isDigit {char : Char} (digit : isDigit char = true) : char.toNat < 128 :=
  Number.IsDigit.toNat_lt (isDigit_iff.mp digit)

theorem ne_space_of_isDigit {char : Char} (digit : isDigit char = true) : char ≠ ' ' := by
  rintro rfl
  revert digit
  decide

/-- The sign of a token is a character of seven bits, and neither a space nor a digit. -/
theorem of_symbol?_eq_some {char : Char} {token : Token} (symbol : symbol? char = some token) :
    char.toNat < 128 ∧ char ≠ ' ' ∧ ¬ isDigit char = true := by
  unfold symbol? at symbol
  split at symbol
  case h_5 => contradiction
  all_goals decide

theorem bytes_cons_of_lt {char : Char} (small : char.toNat < 128) (text : Text) :
    bytes (char :: text) = UInt8.ofNat char.toNat :: bytes text := by
  rw [bytes_cons, utf8EncodeChar_of_lt small, List.singleton_append]

/-- Digits are their own bytes, so the digits at the start of a text are as many in its bytes, and the
bytes after them are those of the rest. -/
theorem digits_of_bytes (text : Text) :
    ((bytes text).takeWhile fun byte => isDigit (ofByte byte)).length =
        byteLength (text.takeWhile isDigit) ∧
      ((bytes text).dropWhile fun byte => isDigit (ofByte byte)) = bytes (text.dropWhile isDigit) := by
  induction text with
  | nil => simp
  | cons char rest ih =>
    cases digit : isDigit char with
    | true =>
      have small := toNat_lt_of_isDigit digit
      rw [bytes_cons_of_lt small]
      simp only [List.takeWhile_cons, List.dropWhile_cons, ofByte_ofNat_toNat small, digit, if_true,
        List.length_cons, byteLength_cons, utf8Size_of_lt small, ih.1, ih.2]
      exact ⟨Nat.add_comm _ _, trivial⟩
    | false =>
      obtain ⟨byte, more, encoded, other⟩ : ∃ byte more,
          String.utf8EncodeChar char = byte :: more ∧ isDigit (ofByte byte) = false := by
        by_cases small : char.toNat < 128
        · exact ⟨_, _, utf8EncodeChar_of_lt small, by rw [ofByte_ofNat_toNat small, digit]⟩
        · obtain ⟨byte, more, encoded, large⟩ := exists_utf8EncodeChar_of_le (Nat.not_lt.mp small)
          refine ⟨byte, more, encoded, Bool.eq_false_iff.mpr fun digit => ?_⟩
          exact absurd (toNat_lt_of_isDigit digit) (Nat.not_lt.mpr large)
      simp [encoded, other, digit]

/-- The digits of a number end between two characters. -/
theorem slice?_digits (before : Text) {char : Char} (small : char.toNat < 128) (rest : Text) :
    slice? (before ++ char :: rest) (byteLength before)
        (byteLength before + 1 + byteLength (rest.takeWhile isDigit)) =
      some (char :: rest.takeWhile isDigit) := by
  have whole : char :: rest = char :: rest.takeWhile isDigit ++ rest.dropWhile isDigit := by
    rw [List.cons_append, List.takeWhile_append_dropWhile]
  have cut := slice?_append before (char :: rest.takeWhile isDigit) (rest.dropWhile isDigit)
  rwa [← whole, byteLength_cons, utf8Size_of_lt small, ← Nat.add_assoc] at cut

/-- The scan of a line from between two characters on. -/
def scanAfter (before text : Text) : Outcome ExpressionError (List Token) :=
  scanFrom (before ++ text) (byteLength before) (bytes text)

variable {char : Char} (before : Text)

@[simp] theorem scanAfter_nil : scanAfter before [] = .ok [] := by
  rw [scanAfter, bytes_nil, scanFrom]

theorem scanAfter_append (piece rest : Text) : scanAfter (before ++ piece) rest =
    scanFrom (before ++ (piece ++ rest)) (byteLength before + byteLength piece) (bytes rest) := by
  rw [scanAfter, List.append_assoc, byteLength_append]

theorem scanAfter_append_singleton (small : char.toNat < 128) (rest : Text) :
    scanAfter (before ++ [char]) rest =
      scanFrom (before ++ char :: rest) (byteLength before + 1) (bytes rest) := by
  rw [scanAfter_append, byteLength_cons, utf8Size_of_lt small]
  rfl

@[simp] theorem scanAfter_space (rest : Text) :
    scanAfter before (' ' :: rest) = scanAfter (before ++ [' ']) rest := by
  have small : ' '.toNat < 128 := by decide
  rw [scanAfter_append_singleton before small, scanAfter, bytes_cons_of_lt small, scanFrom,
    ofByte_ofNat_toNat small, if_pos rfl]

/-- A digit starts a number, which takes all further digits. -/
theorem scanAfter_digit (digit : isDigit char = true) (rest : Text) :
    scanAfter before (char :: rest) = (do
      let value ← (Outcome.ofExcept (Number.readUnsigned 64 (char :: rest.takeWhile isDigit))).mapReport
        ExpressionError.number
      let tokens ← scanAfter (before ++ char :: rest.takeWhile isDigit) (rest.dropWhile isDigit)
      pure (.number value :: tokens)) := by
  have small := toNat_lt_of_isDigit digit
  obtain ⟨count, after⟩ := digits_of_bytes rest
  have whole : char :: rest.takeWhile isDigit ++ rest.dropWhile isDigit = char :: rest := by
    rw [List.cons_append, List.takeWhile_append_dropWhile]
  rw [scanAfter_append, whole, byteLength_cons, utf8Size_of_lt small, ← Nat.add_assoc, scanAfter,
    bytes_cons_of_lt small, scanFrom, ofByte_ofNat_toNat small, if_neg (ne_space_of_isDigit digit),
    if_pos digit]
  simp only [count, after, slice?_digits before small rest]
  rfl

theorem scanAfter_symbol {token : Token} (symbol : symbol? char = some token) (rest : Text) :
    scanAfter before (char :: rest) =
      (do pure (token :: (← scanAfter (before ++ [char]) rest))) := by
  obtain ⟨small, noSpace, noDigit⟩ := of_symbol?_eq_some symbol
  rw [scanAfter_append_singleton before small, scanAfter, bytes_cons_of_lt small, scanFrom,
    ofByte_ofNat_toNat small, if_neg noSpace, if_neg noDigit, symbol]
  rfl

/-- Any other character is reported, by its first byte. -/
theorem exists_scanAfter_eq_report (noSpace : char ≠ ' ') (noDigit : ¬ isDigit char = true)
    (noSymbol : symbol? char = none) (rest : Text) :
    ∃ error, scanAfter before (char :: rest) = Outcome.report error := by
  by_cases small : char.toNat < 128
  · rw [scanAfter, bytes_cons_of_lt small, scanFrom, ofByte_ofNat_toNat small, if_neg noSpace,
      if_neg noDigit, noSymbol]
    exact ⟨_, rfl⟩
  · obtain ⟨byte, more, encoded, large⟩ := exists_utf8EncodeChar_of_le (Nat.not_lt.mp small)
    have noSpace : ofByte byte ≠ ' ' := fun space => absurd large (by rw [space]; decide)
    have noDigit : ¬ isDigit (ofByte byte) = true := fun digit =>
      absurd (toNat_lt_of_isDigit digit) (Nat.not_lt.mpr large)
    have noSymbol : symbol? (ofByte byte) = none := Option.eq_none_iff_forall_ne_some.mpr
      fun token symbol => absurd (of_symbol?_eq_some symbol).1 (Nat.not_lt.mpr large)
    rw [scanAfter, bytes_cons, encoded, List.cons_append, scanFrom, if_neg noSpace, if_neg noDigit,
      noSymbol]
    exact ⟨_, rfl⟩

/-- A scan that starts between two characters cuts only between characters. -/
theorem scanAfter_ne_fault (text : Text) : scanAfter before text ≠ Outcome.fault := by
  induction size : text.length using Nat.strongRecOn generalizing before text with
  | ind size ih =>
    subst size
    cases text with
    | nil => simp [Outcome.ok_ne_fault]
    | cons char rest =>
      have next := ih rest.length (Nat.lt_succ_self _) (before ++ [char]) rest rfl
      by_cases space : char = ' '
      · rwa [space, scanAfter_space, ← space]
      by_cases digit : isDigit char = true
      · have fewer := Nat.lt_succ_of_le (List.dropWhile_sublist isDigit (l := rest)).length_le
        rw [scanAfter_digit before digit]
        refine bind_ne_fault (fun fault => ?_) fun value _ => bind_ne_fault ?_ fun _ _ => ?_
        · exact Outcome.ofExcept_ne_fault (Outcome.mapReport_eq_fault_iff.mp fault)
        · exact ih _ fewer _ _ rfl
        · exact Outcome.ok_ne_fault
      cases symbol : symbol? char with
      | some token =>
        rw [scanAfter_symbol before symbol]
        exact bind_ne_fault next fun _ _ => Outcome.ok_ne_fault
      | none =>
        obtain ⟨error, reported⟩ := exists_scanAfter_eq_report before space digit symbol rest
        rw [reported]
        exact Outcome.report_ne_fault

theorem tokenize_ne_fault (line : Text) : tokenize line ≠ Outcome.fault := by
  refine bind_ne_fault (scanAfter_ne_fault [] line) fun tokens _ => ?_
  exact bind_ne_fault Outcome.ofExcept_ne_fault fun _ _ => Outcome.ok_ne_fault

end PuzzleCalendar.Arithmetic
