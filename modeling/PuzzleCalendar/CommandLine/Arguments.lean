import PuzzleCalendar.Number.Literal

/-! # Command-line arguments

The words of a command line are switches, which stand alone, and settings, which take a value: the
rest of their word or the word after it. Words are read from the left and the first error counts. A
setting whose value is a word of its own is completed when the next switch or setting is read, so that
an unknown word after it is reported first.
-/

namespace PuzzleCalendar.CommandLine

open Text

/-- An argument that stands alone. -/
inductive Switch where
  | quiet
  | verbose
  | help
  | version
deriving DecidableEq, Repr

/-- An argument with a value. -/
inductive Setting where
  | year
  | day
  | part
  | tags
  | inputDir
  | input
deriving DecidableEq, Repr

/-- A switch or a setting. -/
inductive Name where
  | switch (switch : Switch)
  | setting (setting : Setting)
deriving DecidableEq, Repr

/-- The name that a letter stands for. -/
def Name.ofLetter? : Char → Option Name
  | 'y' => some (.setting .year)
  | 'd' => some (.setting .day)
  | 'p' => some (.setting .part)
  | 't' => some (.setting .tags)
  | 'i' => some (.setting .input)
  | 'q' => some (.switch .quiet)
  | 'v' => some (.switch .verbose)
  | 'h' => some (.switch .help)
  | 'V' => some (.switch .version)
  | _ => none

/-- The names that are written in full. -/
def Name.long : List (Text × Name) :=
  [ ("year".toList, .setting .year),
    ("day".toList, .setting .day),
    ("part".toList, .setting .part),
    ("tags".toList, .setting .tags),
    ("input-dir".toList, .setting .inputDir),
    ("input".toList, .setting .input),
    ("quiet".toList, .switch .quiet),
    ("verbose".toList, .switch .verbose),
    ("help".toList, .switch .help),
    ("version".toList, .switch .version) ]

/-- Why a command line is not run. -/
inductive UsageError where
  /-- A value is no number of the wanted range. -/
  | badValue
  /-- A word is no argument. -/
  | unknownArgument
  /-- A setting has no value, or an empty path. -/
  | missingValue
  /-- An argument that may stand once is repeated. -/
  | repeated
  /-- A switch has a value. -/
  | unneededValue
  /-- The help is wanted. -/
  | help
  /-- The version is wanted. -/
  | version
deriving DecidableEq, Repr

/-- What a command line says. -/
structure Arguments where
  year : Option Nat
  day : Option Nat
  part : Option Nat
  tags : List Text
  inputDir : Option Text
  input : Option Text
  quiet : Bool
  verbose : Nat
deriving DecidableEq, Repr

namespace Arguments

/-- The arguments of an empty command line. -/
def none : Arguments := ⟨.none, .none, .none, [], .none, .none, false, 0⟩

/-- A value in place of no value. -/
def once {α : Type} (current : Option α) (value : Except UsageError α) :
    Except UsageError (Option α) :=
  if current.isSome then .error .repeated else value.map some

/-- Reads a number between two bounds. -/
def readNumber (low high : Nat) (value : Text) : Except UsageError Nat :=
  match Number.readSigned 64 value with
  | .error _ => .error .badValue
  | .ok number =>
    if (low : Int) ≤ number ∧ number ≤ high then .ok number.toNat else .error .badValue

/-- Reads a path, which is not empty. -/
def readPath (value : Text) : Except UsageError Text :=
  if value.isEmpty then .error .missingValue else .ok value

/-- The arguments with a setting. -/
def set (arguments : Arguments) (value : Text) : Setting → Except UsageError Arguments
  | .year => do pure { arguments with year := ← once arguments.year (readNumber 0 65535 value) }
  | .day => do pure { arguments with day := ← once arguments.day (readNumber 1 25 value) }
  | .part => do pure { arguments with part := ← once arguments.part (readNumber 1 2 value) }
  | .tags => .ok { arguments with tags := arguments.tags ++ splitAll ',' value }
  | .inputDir => do pure { arguments with inputDir := ← once arguments.inputDir (readPath value) }
  | .input => do pure { arguments with input := ← once arguments.input (readPath value) }

/-- The arguments with a switch. -/
def turnOn (arguments : Arguments) : Switch → Except UsageError Arguments
  | .quiet => if arguments.quiet then .error .repeated else .ok { arguments with quiet := true }
  | .verbose => .ok { arguments with verbose := min (arguments.verbose + 1) 255 }
  | .help => .error .help
  | .version => .error .version

end Arguments

/-- The arguments so far, and the last setting with the word that is its value, as long as it is not
completed. -/
structure Reading where
  arguments : Arguments
  pending : Option (Setting × Option Text)
deriving DecidableEq, Repr

namespace Reading

/-- Nothing read yet. -/
def start : Reading := ⟨.none, none⟩

/-- Completes the last setting. -/
def complete (reading : Reading) : Except UsageError Arguments :=
  match reading.pending with
  | none => .ok reading.arguments
  | some (_, none) => .error .missingValue
  | some (setting, some value) => reading.arguments.set value setting

/-- Reads a setting with a value in the same word, or one that waits for the next word. -/
def readSetting (reading : Reading) (setting : Setting) (value? : Option Text) :
    Except UsageError Reading := do
  let arguments ← reading.complete
  match value? with
  | some value => pure ⟨← arguments.set value setting, none⟩
  | none => pure ⟨arguments, some (setting, none)⟩

/-- Reads a switch. -/
def readSwitch (reading : Reading) (switch : Switch) : Except UsageError Reading := do
  pure ⟨← (← reading.complete).turnOn switch, none⟩

/-- Reads a word after its two hyphens. -/
def readLong (reading : Reading) (word : Text) : Except UsageError Reading :=
  let (name, value?) :=
    match splitOnce? '=' word with
    | some (name, value) => (name, some value)
    | none => (word, none)
  match Name.long.lookup name, value? with
  | none, _ => .error .unknownArgument
  | some (.setting setting), _ => reading.readSetting setting value?
  | some (.switch _), some _ => .error .unneededValue
  | some (.switch switch), none => reading.readSwitch switch

/-- Reads the letters of a word after its hyphen. A setting takes the rest of the word as its value,
without an equals sign before it. -/
def readLetters (reading : Reading) : Text → Except UsageError Reading
  | [] => .ok reading
  | letter :: rest =>
    match Name.ofLetter? letter with
    | none => .error .unknownArgument
    | some (.switch switch) =>
      match reading.readSwitch switch with
      | .ok reading => reading.readLetters rest
      | .error error => .error error
    | some (.setting setting) =>
      match rest with
      | [] => reading.readSetting setting none
      | '=' :: value => reading.readSetting setting (some value)
      | value => reading.readSetting setting (some value)

/-- Reads a word that may be the value of the last setting. -/
def readValue (reading : Reading) (word : Text) : Except UsageError Reading :=
  match reading.pending with
  | some (setting, none) => .ok ⟨reading.arguments, some (setting, some word)⟩
  | _ => .error .unknownArgument

/-- Reads one word. -/
def readWord (reading : Reading) (word : Text) : Except UsageError Reading :=
  match word with
  | '-' :: '-' :: long => reading.readLong long
  | '-' :: letter :: rest => reading.readLetters (letter :: rest)
  | _ => reading.readValue word

/-- Reads the rest of a command line. No word may stand after two hyphens alone. -/
def readWords (reading : Reading) : List Text → Except UsageError Arguments
  | [] => reading.complete
  | word :: words =>
    if word = ['-', '-'] then
      if words.isEmpty then reading.complete else .error .unknownArgument
    else
      match reading.readWord word with
      | .ok reading => reading.readWords words
      | .error error => .error error

end Reading

/-- Reads the words of a command line. -/
def Arguments.read (words : List Text) : Except UsageError Arguments :=
  Reading.start.readWords words

end PuzzleCalendar.CommandLine
