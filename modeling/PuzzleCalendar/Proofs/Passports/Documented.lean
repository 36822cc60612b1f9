import PuzzleCalendar.Proofs.Number.Decimal
import PuzzleCalendar.Proofs.Parsing.Faults
import PuzzleCalendar.Puzzles.Passports
import PuzzleCalendar.Text.Slice
import Std.Data.String.ToNat

/-! # Documented values

Every required field has a documented form: a year of four digits, a height in digits with its unit, a color,
a number of nine digits. The reader of integers also takes a plus sign before the digits. Four characters of a
year leave no room for one, but a height may have it. The second part counts the passports whose required
fields are all given, each with a value of that form when the sign of a height is put aside, and the last
value counts where a key is given again.
-/

namespace PuzzleCalendar.Passports

open Text

/-- A run of digits whose value is between two bounds. -/
structure IsNumeral (low high : Nat) (text : Text) : Prop where
  nonempty : text ≠ []
  digits : ∀ char ∈ text, Number.IsDigit char
  least : low ≤ Number.decimal text
  greatest : Number.decimal text ≤ high

/-- Digits and the unit that they are counted in. -/
def Measures (unit : Text) (low high : Nat) (value : Text) : Prop :=
  ∃ digits, value = digits ++ unit ∧ IsNumeral low high digits

/-- The values that are documented for a field. -/
def Field.Documents (value : Text) : Field → Prop
  | birthYear => value.length = 4 ∧ IsNumeral 1920 2002 value
  | issueYear => value.length = 4 ∧ IsNumeral 2010 2020 value
  | expirationYear => value.length = 4 ∧ IsNumeral 2020 2030 value
  | height => Measures "cm".toList 150 193 value ∨ Measures "in".toList 59 76 value
  | hairColor => ∃ digits, value = '#' :: digits ∧ digits.length = 6 ∧
      ∀ char ∈ digits, Number.IsDigit char ∨ 'a' ≤ char ∧ char ≤ 'f'
  | eyeColor => value ∈ ["amb", "blu", "brn", "gry", "grn", "hzl", "oth"].map String.toList
  | passportId => value.length = 9 ∧ ∀ char ∈ value, Number.IsDigit char

/-- The documented values, and the heights with a plus sign before them. -/
def Field.Takes (value : Text) (field : Field) : Prop :=
  field.Documents value ∨ field = height ∧ ∃ plain, value = '+' :: plain ∧ field.Documents plain

/-- A token gives a key a value: the key ends at the first colon. -/
def IsField (token key value : Text) : Prop := token = key ++ ':' :: value ∧ ':' ∉ key

/-- The last of the tokens that give a key a value gives it this one. -/
def Gives (tokens : List Text) (key value : Text) : Prop :=
  ∃ before token after, tokens = before ++ token :: after ∧ IsField token key value ∧
    ∀ later ∈ after, ∀ other, ¬ IsField later key other

/-- All required keys are given in a block, with values of some form. -/
structure Fits (form : Text → Field → Prop) (block : List Text) : Prop where
  complete : ∀ field : Field, ∃ value, Gives (block.flatMap words) field.key value
  values : ∀ (field : Field) (value : Text), Gives (block.flatMap words) field.key value → form value field

section Values

variable {low high : Nat} {value unit : Text} {field : Field}

theorem isDigit_iff {char : Char} : isDigit char = true ↔ Number.IsDigit char := by
  simp [isDigit, Number.IsDigit]

theorem isWithin_eq_true_iff (held : high < 2 ^ 32) : isWithin low high value = true ↔
    ∃ digits, (value = digits ∨ value = '+' :: digits) ∧ IsNumeral low high digits := by
  have read (number : Nat) : Number.readUnsigned 32 value = .ok number ↔ _ := Number.readUnsigned_eq_ok_iff
  constructor
  · intro within
    unfold isWithin at within
    split at within
    · rename_i number found
      obtain ⟨digits, same, nonempty, isDigits, rfl, -⟩ := (read number).mp found
      rw [Bool.and_eq_true, decide_eq_true_eq, decide_eq_true_eq] at within
      exact ⟨digits, same, nonempty, isDigits, within.1, within.2⟩
    · contradiction
  · rintro ⟨digits, same, nonempty, isDigits, least, greatest⟩
    have found := (read (Number.decimal digits)).mpr
      ⟨digits, same, nonempty, isDigits, rfl, Nat.lt_of_le_of_lt greatest held⟩
    rw [isWithin, found]
    simp [least, greatest]

/-- A plus sign in a year of four characters leaves three digits, which are too few. -/
theorem isYear_eq_true_iff (large : 1000 ≤ low) (held : high < 2 ^ 32) :
    isYear low high value = true ↔ value.length = 4 ∧ IsNumeral low high value := by
  rw [isYear, Bool.and_eq_true, decide_eq_true_eq, isWithin_eq_true_iff held]
  constructor
  · rintro ⟨four, digits, rfl | rfl, numeral⟩
    · rw [byteLength_eq_length fun char member => (numeral.digits char member).toNat_lt] at four
      exact ⟨four, numeral⟩
    · have small : ∀ char ∈ '+' :: digits, char.toNat < 128 := List.forall_mem_cons.mpr
        ⟨by decide, fun char member => (numeral.digits char member).toNat_lt⟩
      rw [byteLength_eq_length small, List.length_cons] at four
      have few := Number.decimal_lt numeral.digits
      rw [Nat.succ.inj four] at few
      exact absurd numeral.least (by omega)
  · rintro ⟨four, numeral⟩
    rw [byteLength_eq_length fun char member => (numeral.digits char member).toNat_lt]
    exact ⟨four, value, .inl rfl, numeral⟩

theorem isHairColor_eq_true_iff : isHairColor value = true ↔ Field.hairColor.Documents value := by
  unfold isHairColor
  split
  · rename_i digits
    simp [Field.Documents, isDigit_iff]
  · rename_i other
    refine iff_of_false Bool.false_ne_true ?_
    rintro ⟨digits, rfl, -⟩
    exact other digits rfl

theorem isPassportId_eq_true_iff : isPassportId value = true ↔ Field.passportId.Documents value := by
  simp [isPassportId, Field.Documents, isDigit_iff]

/-- The number before a unit may have a plus sign. -/
theorem exists_dropTail?_iff (held : high < 2 ^ 32) :
    (∃ number, dropTail? unit value = some number ∧ isWithin low high number = true) ↔
      Measures unit low high value ∨ ∃ plain, value = '+' :: plain ∧ Measures unit low high plain := by
  simp only [dropTail?_eq_some_iff, isWithin_eq_true_iff held]
  constructor
  · rintro ⟨_, rfl, digits, rfl | rfl, numeral⟩
    · exact .inl ⟨_, rfl, numeral⟩
    · exact .inr ⟨digits ++ unit, rfl, digits, rfl, numeral⟩
  · rintro (⟨digits, rfl, numeral⟩ | ⟨_, rfl, digits, rfl, numeral⟩)
    · exact ⟨digits, rfl, digits, .inl rfl, numeral⟩
    · exact ⟨'+' :: digits, rfl, digits, .inr rfl, numeral⟩

/-- No value ends with both units. -/
theorem dropTail?_inches_of_centimeters {number : Text} (cut : dropTail? "cm".toList value = some number) :
    dropTail? "in".toList value = none := by
  rw [Option.eq_none_iff_forall_ne_some]
  intro other found
  have same := (dropTail?_eq_some_iff.mp cut).symm.trans (dropTail?_eq_some_iff.mp found)
  have last := congrArg List.getLast? same
  simp at last

theorem isHeight_eq_true_iff : isHeight value = true ↔
    (∃ number, dropTail? "cm".toList value = some number ∧ isWithin 150 193 number = true) ∨
      ∃ number, dropTail? "in".toList value = some number ∧ isWithin 59 76 number = true := by
  unfold isHeight
  cases metric : dropTail? "cm".toList value with
  | some number =>
    rw [dropTail?_inches_of_centimeters metric]
    simp
  | none => cases dropTail? "in".toList value <;> simp

/-- A field allows what is documented for it, and a height may have a plus sign. -/
theorem allows_iff_takes : field.allows value = true ↔ field.Takes value := by
  have plain (documented : field.allows value = true ↔ field.Documents value) (other : field ≠ .height) :
      field.allows value = true ↔ field.Takes value := by simp [documented, Field.Takes, other]
  cases field with
  | birthYear => exact plain (isYear_eq_true_iff (by decide) (by decide)) (by decide)
  | issueYear => exact plain (isYear_eq_true_iff (by decide) (by decide)) (by decide)
  | expirationYear => exact plain (isYear_eq_true_iff (by decide) (by decide)) (by decide)
  | height =>
    have signed : Field.height.allows value = true ↔ _ := isHeight_eq_true_iff
    rw [signed, exists_dropTail?_iff (by decide), exists_dropTail?_iff (by decide)]
    simp only [Field.Takes, Field.Documents, true_and, and_or_left, exists_or]
    exact or_or_or_comm
  | hairColor => exact plain isHairColor_eq_true_iff (by decide)
  | eyeColor => exact plain List.contains_iff_mem (by decide)
  | passportId => exact plain isPassportId_eq_true_iff (by decide)

end Values

section Blocks

variable {number : Nat} {token key value : Text} {tokens block : List Text} {fields : List (Text × Text)}
  {passport : Passport} {field : Field}

theorem readField_eq_ok_iff : readField number token = .ok (key, value) ↔ IsField token key value := by
  unfold readField
  rw [IsField, ← splitOnce?_eq_some_iff]
  cases splitOnce? ':' token <;> simp

theorem IsField.key_unique {other last : Text} (one : IsField token key value) (two : IsField token other last) :
    key = other ∧ value = last := by
  rw [IsField, ← splitOnce?_eq_some_iff] at one two
  exact Prod.mk.inj (Option.some.inj (one.symm.trans two))

theorem lookup_filter_ne {other : Text} (apart : key ≠ other) (passport : Passport) :
    (passport.filter (·.1 != other)).lookup key = passport.lookup key := by
  induction passport with
  | nil => rfl
  | cons field passport ih =>
    obtain ⟨first, value⟩ := field
    by_cases dropped : first = other
    · have unequal : (key == first) = false := by simpa [dropped] using apart
      rw [List.filter_cons_of_neg (by simpa using dropped), ih, List.lookup_cons, unequal]
    · rw [List.filter_cons_of_pos (by simpa using dropped), List.lookup_cons, List.lookup_cons, ih]

theorem lookup_insert (passport : Passport) (field : Text × Text) (key : Text) :
    (passport.insert field).lookup key = if key = field.1 then some field.2 else passport.lookup key := by
  obtain ⟨other, value⟩ := field
  rw [Passport.insert, List.lookup_append]
  by_cases same : key = other
  · have removed : (passport.filter (·.1 != other)).lookup key = none := by
      rw [List.lookup_eq_none_iff]
      intro field listed
      rw [same, bne_comm]
      exact (List.mem_filter.mp listed).2
    rw [removed, if_pos same, same, List.lookup_cons_self, Option.none_or]
  · have unequal : (key == other) = false := by simpa using same
    rw [lookup_filter_ne same, if_neg same, List.lookup_cons, unequal, List.lookup_nil, Option.or_none]

theorem gives_cons_iff : Gives (token :: tokens) key value ↔
    Gives tokens key value ∨ IsField token key value ∧ ∀ later ∈ tokens, ∀ other, ¬ IsField later key other := by
  constructor
  · rintro ⟨before, found, after, same, given, last⟩
    cases before with
    | nil =>
      obtain ⟨rfl, rfl⟩ := List.cons_eq_cons.mp same
      exact .inr ⟨given, last⟩
    | cons first before =>
      obtain ⟨rfl, rfl⟩ := List.cons_eq_cons.mp same
      exact .inl ⟨before, found, after, rfl, given, last⟩
  · rintro (⟨before, found, after, rfl, given, last⟩ | ⟨given, last⟩)
    · exact ⟨token :: before, found, after, rfl, given, last⟩
    · exact ⟨[], token, tokens, rfl, given, last⟩

/-- Fields that are put in one after the other leave the last value of each key. -/
theorem lookup_foldl_insert
    (read : List.Forall₂ (fun token field => readField number token = .ok field) tokens fields)
    (passport : Passport) : (fields.foldl Passport.insert passport).lookup key = some value ↔
      Gives tokens key value ∨
        (∀ token ∈ tokens, ∀ other, ¬ IsField token key other) ∧ passport.lookup key = some value := by
  induction read generalizing passport with
  | nil => simp [Gives]
  | @cons token field tokens fields first others ih =>
    obtain ⟨other, last⟩ := field
    have given := readField_eq_ok_iff.mp first
    rw [List.foldl_cons, ih, lookup_insert, gives_cons_iff, List.forall_mem_cons, or_assoc]
    refine or_congr_right ?_
    by_cases same : key = other
    · obtain rfl := same
      have value_iff : IsField token key value ↔ last = value :=
        ⟨fun found => (given.key_unique found).2, fun same => same ▸ given⟩
      have present : ¬ ∀ other, ¬ IsField token key other := fun none => none last given
      simp [value_iff, present, and_comm]
    · have absent : ∀ other, ¬ IsField token key other := fun _ found => same (found.key_unique given).1
      simp [same, absent]

theorem lookup_of_readPassport (read : readPassport number block = .ok passport) :
    passport.lookup key = some value ↔ Gives (block.flatMap words) key value := by
  obtain ⟨fields, each, same⟩ := bind_eq_ok_iff.mp read
  obtain rfl := Except.ok.inj same
  rw [lookup_foldl_insert (mapM_eq_ok_iff.mp each)]
  simp

theorem mem_all (field : Field) : field ∈ Field.all := by
  cases field <;> decide

theorem isValid_iff : passport.isValid = true ↔
    ∀ field : Field, ∃ value, passport.lookup field.key = some value ∧ field.Takes value := by
  rw [Passport.isValid, List.all_eq_true]
  constructor
  · intro valid field
    have valid := valid field (mem_all field)
    split at valid
    · rename_i value found
      exact ⟨value, found, allows_iff_takes.mp valid⟩
    · contradiction
  · intro each field _
    obtain ⟨value, found, takes⟩ := each field
    rw [found]
    exact allows_iff_takes.mpr takes

/-- A passport is valid when its block gives every required field a value that the field takes. -/
theorem isValid_iff_fits (read : readPassport number block = .ok passport) :
    passport.isValid = true ↔ Fits Field.Takes block := by
  simp only [isValid_iff, lookup_of_readPassport read]
  constructor
  · intro valid
    refine ⟨fun field => (valid field).imp fun _ => And.left, fun field value given => ?_⟩
    obtain ⟨other, found, takes⟩ := valid field
    rw [← lookup_of_readPassport read] at given found
    exact Option.some.inj (found.symm.trans given) ▸ takes
  · intro fits field
    obtain ⟨value, given⟩ := fits.complete field
    exact ⟨value, given, fits.values field value given⟩

end Blocks

section Forms

variable {block : List Text} {plain : Text}

/-- No documented height has a sign. -/
theorem not_documents_signed : ¬ Field.height.Documents ('+' :: plain) := by
  have unsigned {unit : Text} {low high : Nat} (spelled : unit.head? ≠ some '+') :
      ¬ Measures unit low high ('+' :: plain) := by
    rintro ⟨digits, same, numeral⟩
    cases digits with
    | nil => exact numeral.nonempty rfl
    | cons first digits =>
      obtain ⟨rfl, -⟩ := List.cons_eq_cons.mp same
      exact absurd (numeral.digits '+' List.mem_cons_self) (by unfold Number.IsDigit; decide)
  rintro (metric | inches)
  · exact unsigned (by decide) metric
  · exact unsigned (by decide) inches

theorem Fits.takes (fits : Fits Field.Documents block) : Fits Field.Takes block :=
  ⟨fits.complete, fun field value given => .inl (fits.values field value given)⟩

/-- Values are documented that have no sign. -/
theorem Fits.documents_iff (fits : Fits Field.Takes block) : Fits Field.Documents block ↔
    ∀ plain, ¬ Gives (block.flatMap words) Field.height.key ('+' :: plain) := by
  constructor
  · exact fun documented plain given => not_documents_signed (documented.values .height _ given)
  · refine fun unsigned => ⟨fits.complete, fun field value given => ?_⟩
    obtain documented | ⟨rfl, plain, rfl, -⟩ := fits.values field value given
    · exact documented
    · exact absurd given (unsigned plain)

end Forms

section Counting

variable {α : Type} {passports : List Passport} {text : Text}

/-- A stronger condition is met as often only when it makes no difference. -/
theorem countP_eq_countP_iff {strong weak : α → Bool} (items : List α)
    (weaker : ∀ item, strong item = true → weak item = true) :
    items.countP weak = items.countP strong ↔ ∀ item ∈ items, weak item = true → strong item = true := by
  constructor
  · intro same item member meets
    have kept := (List.monotone_filter_right items weaker).eq_of_length
      (by rw [← List.countP_eq_length_filter, ← List.countP_eq_length_filter, same])
    have found := List.mem_filter.mpr ⟨member, meets⟩
    rw [← kept] at found
    exact (List.mem_filter.mp found).2
  · exact fun each => List.countP_congr fun item member => ⟨each item member, weaker item⟩

theorem readPassports_of_parse (read : parse text = .ok passports) :
    List.Forall₂ (fun block passport => ∃ number, readPassport number block = .ok passport)
      (Input.blocks text) passports := by
  have each := mapM_eq_ok_iff.mp (Outcome.ofExcept_eq_ok_iff.mp read)
  rw [← List.zipIdx_map_fst 1 (Input.blocks text), List.forall₂_map_left_iff]
  exact each.imp fun item passport found => ⟨item.2, found⟩

open scoped Classical in
/-- The second part counts the blocks that give every required field, each field with a value that it takes:
a documented one, or a documented height with a plus sign before it. So it counts the blocks with documented
values exactly when no block passes with a plus sign before its height. -/
theorem countPassports_isValid_of_parse (read : parse text = .ok passports) :
    countPassports Passport.isValid passports =
      .ok (toString ((Input.blocks text).countP fun block => decide (Fits Field.Takes block))) ∧
    (countPassports Passport.isValid passports =
        .ok (toString ((Input.blocks text).countP fun block => decide (Fits Field.Documents block))) ↔
      ∀ block ∈ Input.blocks text, Fits Field.Takes block →
        ∀ plain, ¬ Gives (block.flatMap words) Field.height.key ('+' :: plain)) := by
  have counted : (Input.blocks text).countP (fun block => decide (Fits Field.Takes block)) =
      passports.countP Passport.isValid := by
    have same : (Input.blocks text).map (fun block => decide (Fits Field.Takes block)) =
        passports.map Passport.isValid := by
      apply map_eq_map_of_forall₂ (readPassports_of_parse read)
      rintro block passport ⟨number, found⟩
      rw [Bool.eq_iff_iff, decide_eq_true_eq, isValid_iff_fits found]
    have counts := congrArg (List.countP id) same
    rwa [List.countP_map, List.countP_map, Function.id_comp, Function.id_comp] at counts
  have strict : ∀ block, decide (Fits Field.Documents block) = true → decide (Fits Field.Takes block) = true :=
    fun block documented => decide_eq_true (of_decide_eq_true documented).takes
  rw [countPassports, ← counted, Except.ok.injEq, Except.ok.injEq]
  refine ⟨rfl, Nat.repr_inj.trans ?_⟩
  rw [countP_eq_countP_iff _ strict]
  refine forall₂_congr fun block _ => ?_
  rw [decide_eq_true_eq, decide_eq_true_eq]
  exact forall_congr' fun fits => fits.documents_iff

/-- A passport whose last height has a plus sign. -/
def signedHeight : Text :=
  "hgt:190 byr:1937 iyr:2017 eyr:2020\nhcl:#fffffd ecl:gry pid:860033327 hgt:+183cm\n".toList

theorem parse_signedHeight : parse signedHeight = .ok [[("byr".toList, "1937".toList),
    ("iyr".toList, "2017".toList), ("eyr".toList, "2020".toList), ("hcl".toList, "#fffffd".toList),
    ("ecl".toList, "gry".toList), ("pid".toList, "860033327".toList), ("hgt".toList, "+183cm".toList)]] := by
  decide +kernel

open scoped Classical in
theorem countPassports_isValid_signedHeight : ∃ passports, parse signedHeight = .ok passports ∧
    countPassports Passport.isValid passports =
      .ok (toString ((Input.blocks signedHeight).countP fun block => decide (Fits Field.Takes block))) :=
  ⟨_, parse_signedHeight, (countPassports_isValid_of_parse parse_signedHeight).1⟩

open scoped Classical in
/-- A passport passes although its height is no documented one. -/
theorem not_countPassports_documented : ¬ ∀ text passports, parse text = .ok passports →
    countPassports Passport.isValid passports =
      .ok (toString ((Input.blocks text).countP fun block => decide (Fits Field.Documents block))) := by
  intro documented
  have blocks : Input.blocks signedHeight = [["hgt:190 byr:1937 iyr:2017 eyr:2020".toList,
      "hcl:#fffffd ecl:gry pid:860033327 hgt:+183cm".toList]] := by decide +kernel
  have unfit : ¬ Fits Field.Documents ["hgt:190 byr:1937 iyr:2017 eyr:2020".toList,
      "hcl:#fffffd ecl:gry pid:860033327 hgt:+183cm".toList] := by
    refine fun fits => not_documents_signed (fits.values .height "+183cm".toList ?_)
    refine ⟨["hgt:190", "byr:1937", "iyr:2017", "eyr:2020", "hcl:#fffffd", "ecl:gry", "pid:860033327"].map
      String.toList, "hgt:+183cm".toList, [], by decide +kernel, ⟨rfl, by decide⟩, List.forall_mem_nil _⟩
  have counted := documented _ _ parse_signedHeight
  rw [blocks, List.countP_singleton, decide_eq_false unfit] at counted
  exact absurd counted (by decide +kernel)

end Counting

end PuzzleCalendar.Passports
