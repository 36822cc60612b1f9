import PuzzleCalendar.Input
import PuzzleCalendar.Number.Literal
import PuzzleCalendar.Number.Width
import PuzzleCalendar.Puzzle
import PuzzleCalendar.Text.DecimalDigit
import Std.Data.HashMap

/-! # Docking programs

A program sets masks and writes words to memory. The first part lets the mask in force overwrite bits
of the value, the second one lets it overwrite bits of the address, where a floating bit stands for
both bits and so multiplies the addresses. Both answer with the sum of what memory holds.
-/

namespace PuzzleCalendar.Docking

open Text

/-- A word of memory or an address. -/
abbrev Word := BitVec 64

/-- The bits that a mask sets, clears and leaves floating. -/
structure Mask where
  ones : Word
  zeros : Word
  floating : Word
deriving DecidableEq, Repr

/-- Why a text is no mask. -/
inductive MaskError where
  | length (bytes : Nat)
  | bit (char : Char)
deriving DecidableEq, Repr

/-- The number of bits of a mask. -/
def Mask.width : Nat := 36

/-- The sentence that reports a mask error. -/
def MaskError.message : MaskError → String
  | length bytes => s!"mask must be {Mask.width} bits, got {bytes}"
  | bit char => "unexpected mask bit " ++ quotedChar char

/-- The mask without a bit of any kind. -/
def Mask.empty : Mask := ⟨0, 0, 0⟩

/-- The mask with one more bit on the right. -/
def Mask.push? (mask : Mask) (char : Char) : Option Mask :=
  match char with
  | '1' => some ⟨mask.ones <<< 1 ||| 1, mask.zeros <<< 1, mask.floating <<< 1⟩
  | '0' => some ⟨mask.ones <<< 1, mask.zeros <<< 1 ||| 1, mask.floating <<< 1⟩
  | 'X' => some ⟨mask.ones <<< 1, mask.zeros <<< 1, mask.floating <<< 1 ||| 1⟩
  | _ => none

/-- Reads bits onto a mask, the highest first. -/
def Mask.readBits (mask : Mask) : Text → Except MaskError Mask
  | [] => .ok mask
  | char :: bits =>
    match mask.push? char with
    | some mask => mask.readBits bits
    | none => .error (.bit (leadByte char))

/-- Reads a mask. -/
def Mask.read (bits : Text) : Except MaskError Mask :=
  if byteLength bits = Mask.width then Mask.empty.readBits bits
  else .error (.length (byteLength bits))

/-- The value with the bits that the mask sets and clears. -/
def Mask.overwrite (mask : Mask) (value : Word) : Word :=
  (value &&& ~~~mask.zeros) ||| mask.ones

/-- The sets of floating bits from `bits` down to the empty one. The next smaller set is what one less has
of the floating bits. -/
def submasks (floating bits : Word) : List Word :=
  if bits = 0 then [bits] else bits :: submasks floating ((bits - 1) &&& floating)
termination_by bits.toNat
decreasing_by
  have below : ((bits - 1) &&& floating).toNat ≤ (bits - 1).toNat := by
    rw [BitVec.toNat_and]
    exact Nat.and_le_left
  bv_omega

/-- The addresses that an address stands for: bits that the mask sets are set, and the floating ones
take both values. -/
def Mask.addresses (mask : Mask) (address : Word) : List Word :=
  (submasks mask.floating mask.floating).map fun bits =>
    ((address ||| mask.ones) &&& ~~~mask.floating) ||| bits

/-- One line of a program. -/
inductive Command where
  | setMask (mask : Mask)
  | write (address value : Word)
deriving DecidableEq, Repr

/-- Why a line is no command. -/
inductive CommandError where
  | shape (line : Text)
  | address
  | value
deriving DecidableEq, Repr

/-- The sentence that reports a command error. -/
def CommandError.message : CommandError → String
  | shape line => "expected `mask = ...` or `mem[a] = v`, got " ++ quoted line
  | address => "address out of range"
  | value => "value out of range"

/-- The mask of a line that sets one. -/
def maskLine? (line : Text) : Option Mask := do
  (Mask.read (← dropLead? "mask = ".toList line)).toOption

/-- The address and the value of a line that writes, as they are written. -/
def writeLine? (line : Text) : Option (Text × Text) := do
  let rest ← dropLead? "mem[".toList line
  let address := rest.takeWhile isDecimalDigit
  let value ← dropLead? "] = ".toList (rest.dropWhile isDecimalDigit)
  if !address.isEmpty && !value.isEmpty && value.all isDecimalDigit then some (address, value)
  else none

/-- Reads a word in decimal digits. -/
def readWord (error : CommandError) (digits : Text) : Except CommandError Word :=
  match Number.readUnsigned 64 digits with
  | .ok word => .ok (BitVec.ofNat 64 word)
  | .error _ => .error error

/-- Reads one command. -/
def Command.read (line : Text) : Except CommandError Command :=
  match maskLine? line with
  | some mask => .ok (.setMask mask)
  | none =>
    match writeLine? line with
    | none => .error (.shape line)
    | some (address, value) => do
      pure (.write (← readWord .address address) (← readWord .value value))

/-- What the cells hold that were written. -/
abbrev Memory := Std.HashMap Word Word

/-- How a write under a mask changes memory. -/
abbrev Store := Memory → Mask → Word → Word → Memory

/-- A write whose value the mask overwrites. -/
def storeValue : Store := fun memory mask address value =>
  memory.insert address (mask.overwrite value)

/-- A write to every address that its address stands for. -/
def storeEach : Store := fun memory mask address value =>
  (mask.addresses address).foldl (fun memory cell => memory.insert cell value) memory

/-- The mask in force and memory while a program runs. -/
structure State where
  mask : Mask
  memory : Memory

/-- The state after one command. -/
def State.step (store : Store) (state : State) : Command → State
  | .setMask mask => { state with mask }
  | .write address value => { state with memory := store state.memory state.mask address value }

/-- Nothing is written yet, and a mask is in force. -/
def State.start (mask : Mask) : State := ⟨mask, ∅⟩

/-- The state after a program. -/
def State.run (store : Store) (state : State) (program : List Command) : State :=
  program.foldl (State.step store) state

/-- The sum of what memory holds, in the order of the map, as far as words hold it. -/
def Memory.sum? (memory : Memory) : Option Nat :=
  Number.sum64? (memory.toList.map fun cell => cell.2.toNat)

/-- The program of all lines, which sets a mask before it writes. -/
def parse (text : Text) : Outcome ParseError (List Command) :=
  Outcome.ofExcept do
    let program ← Input.readLines
      (fun line => (Command.read line).mapError CommandError.message) text
    match program with
    | .write _ _ :: _ => .error (.invalidLine 1 "memory write before the first mask")
    | _ => pure program

/-- The sum of memory after a program. -/
def answer (store : Store) (program : List Command) : Outcome SolveError String := do
  pure (toString (← Outcome.orFault ((State.start Mask.empty).run store program).memory.sum?))

/-- The docking program. -/
def puzzle : Puzzle := Puzzle.ofParts parse (answer storeValue) (answer storeEach)

end PuzzleCalendar.Docking
