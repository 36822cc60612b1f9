import PuzzleCalendar.Input
import PuzzleCalendar.Number.Literal
import PuzzleCalendar.Puzzle

/-! # Handheld console

A console has an accumulator and a program counter. One instruction adds to the accumulator, one jumps
and one does nothing. A run ends when the counter leaves the program, or when it comes to an
instruction for the second time, for from there on it would go round forever.
-/

namespace PuzzleCalendar.Console

open Text

/-- An instruction with its argument. -/
inductive Instruction where
  | acc (argument : Int)
  | jmp (argument : Int)
  | nop (argument : Int)
deriving DecidableEq, Repr, Inhabited

/-- Why a line is no instruction. -/
inductive InstructionError where
  | shape (line : Text)
  | argument (text : Text)
  | unknown (operation : Text)
deriving DecidableEq, Repr

/-- The sentence that reports an instruction error. -/
def InstructionError.message : InstructionError → String
  | shape line => "expected `<op> <arg>`, got " ++ quoted line
  | argument text => "bad argument " ++ quoted text
  | unknown operation => "unknown instruction " ++ quoted operation

/-- Reads one instruction. -/
def Instruction.read (line : Text) : Except InstructionError Instruction :=
  match splitOnce? ' ' line with
  | none => .error (.shape line)
  | some (operation, text) =>
    match Number.readSigned 64 text with
    | .error _ => .error (.argument text)
    | .ok argument =>
      if operation = "acc".toList then .ok (acc argument)
      else if operation = "jmp".toList then .ok (jmp argument)
      else if operation = "nop".toList then .ok (nop argument)
      else .error (.unknown operation)

/-- A jump for doing nothing and the other way round. -/
def Instruction.swapped? : Instruction → Option Instruction
  | acc _ => none
  | jmp argument => some (nop argument)
  | nop argument => some (jmp argument)

/-- The program counter and the accumulator. -/
structure State where
  counter : Int
  accumulator : Int
deriving DecidableEq, Repr

/-- The state in which a run starts. -/
def State.initial : State := ⟨0, 0⟩

/-- What an instruction makes of a state. -/
def Instruction.apply (state : State) : Instruction → State
  | acc argument => ⟨state.counter + 1, state.accumulator + argument⟩
  | jmp argument => ⟨state.counter + argument, state.accumulator⟩
  | nop _ => ⟨state.counter + 1, state.accumulator⟩

/-- One step of a machine that keeps no record of where it was. It has none outside the program. -/
def step? (program : Array Instruction) (state : State) : Option State :=
  if state.counter < 0 then none
  else program[state.counter.toNat]?.map (Instruction.apply state)

/-- How a run ends, with the accumulator at its end. -/
inductive Ending where
  | halted (accumulator : Int)
  | looped (accumulator : Int)
deriving DecidableEq, Repr

theorem count_set_false_lt {size : Nat} {fresh : Vector Bool size} {place : Nat}
    (inside : place < size) (unused : fresh[place] = true) :
    (fresh.set place false).count true < fresh.count true := by
  have member : true ∈ fresh := unused ▸ Vector.getElem_mem inside
  have positive := Vector.count_pos_iff.mpr member
  simp [Vector.count_set, unused]
  omega

/-- Runs on from a state. `fresh` marks the instructions that have not run yet. -/
def runFrom (program : Array Instruction) (fresh : Vector Bool program.size) (state : State) :
    Ending :=
  if inside : 0 ≤ state.counter ∧ state.counter.toNat < program.size then
    if unused : fresh[state.counter.toNat] = true then
      runFrom program (fresh.set state.counter.toNat false inside.2)
        (program[state.counter.toNat].apply state)
    else .looped state.accumulator
  else .halted state.accumulator
termination_by fresh.count true
decreasing_by exact count_set_false_lt inside.2 unused

/-- Runs a program from its first instruction. -/
def run (program : Array Instruction) : Ending :=
  runFrom program (Vector.replicate program.size true) State.initial

/-- Swaps one instruction after the other, from the place `index` on, until the program halts. Each
swap is taken back after its run. -/
def repairFrom (program : Array Instruction) (index : Nat) : Option Int × Array Instruction :=
  if inside : index < program.size then
    match program[index].swapped? with
    | none => repairFrom program (index + 1)
    | some swapped =>
      let instruction := program[index]
      let patched := program.set index swapped
      let ending := run patched
      let restored := patched.set index instruction (by simpa [patched] using inside)
      match ending with
      | .halted accumulator => (some accumulator, restored)
      | .looped _ => repairFrom restored (index + 1)
  else (none, program)
termination_by program.size - index
decreasing_by
  · omega
  · rw [Array.size_set, Array.size_set]
    omega

/-- The accumulator after the first swap with which the program halts, and the program as it is left. -/
def repair (program : Array Instruction) : Option Int × Array Instruction :=
  repairFrom program 0

/-- The program of all lines. -/
def parse (text : Text) : Outcome ParseError (Array Instruction) :=
  Outcome.ofExcept do
    let program ← Input.readLines
      (fun line => (Instruction.read line).mapError InstructionError.message) text
    pure program.toArray

/-- The accumulator when the program comes to an instruction for the second time. -/
def loopValue (program : Array Instruction) : Outcome SolveError String :=
  match run program with
  | .looped accumulator => .ok (toString accumulator)
  | .halted accumulator =>
    Outcome.report (.noSolution s!"program halted with accumulator {accumulator} instead of looping")

/-- The accumulator of the repaired program. -/
def repairValue (program : Array Instruction) : Outcome SolveError String × Array Instruction :=
  match repair program with
  | (some accumulator, program) => (.ok (toString accumulator), program)
  | (none, program) =>
    (Outcome.report (.noSolution "no single jmp/nop swap makes the program halt"), program)

/-- The console. -/
def puzzle : Puzzle :=
  Puzzle.twoParts parse (fun program => (loopValue program, program)) repairValue

end PuzzleCalendar.Console
