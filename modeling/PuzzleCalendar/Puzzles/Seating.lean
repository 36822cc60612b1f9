import PuzzleCalendar.Input
import PuzzleCalendar.Puzzle

/-! # Seating

In every round all seats change at once. An empty seat without occupied seats around it is taken, and
an occupied one with too many is left. The first part looks at the adjacent places, the second one at
the first seat in each direction. The answer is the number of occupied seats once nothing changes any
more.
-/

namespace PuzzleCalendar.Seating

/-- The row and the column of a place. -/
abbrev Place := Int × Int

/-- The steps to the places around a place, row by row. -/
def directions : List Place :=
  [(-1, -1), (-1, 0), (-1, 1), (0, -1), (0, 1), (1, -1), (1, 0), (1, 1)]

/-- Who sits at first, and the seats around each seat: those at adjacent places and those in sight. -/
structure SeatChart where
  initial : Array Bool
  adjacent : Array (List Nat)
  visible : Array (List Nat)
deriving DecidableEq, Repr

/-- The place as many steps away as `distance` says. -/
def Place.ahead (place direction : Place) (distance : Nat) : Place :=
  (place.1 + direction.1 * distance, place.2 + direction.2 * distance)

/-- The seats of a plan, row by row, each with its place and whether it is occupied. -/
def seats (rows : List (List (Option Bool))) : List (Place × Bool) :=
  rows.zipIdx.flatMap fun (row, r) =>
    row.zipIdx.filterMap fun (cell, c) => cell.map fun occupied => (((r : Int), (c : Int)), occupied)

/-- The number of the seat at each row and column that has one. -/
abbrev SeatTable := Array (Array (Option Nat))

namespace SeatTable

/-- What stands at a row and a column of the table. -/
def at? (table : SeatTable) (row column : Nat) : Option (Option Nat) := do
  (← table[row]?)[column]?

/-- The table with a seat at one of its rows and columns. -/
def write? (table : SeatTable) (row column seat : Nat) : Option SeatTable :=
  if inside : row < table.size then
    if there : column < table[row].size then
      some (table.set row (table[row].set column (some seat)))
    else none
  else none

end SeatTable

/-- The size of a plan. -/
structure Extent where
  height : Nat
  width : Nat
deriving DecidableEq, Repr

namespace Extent

/-- The size of a plan whose rows are as long as the first one. -/
def ofRows (rows : List (List (Option Bool))) : Extent where
  height := rows.length
  width := (rows.head?.map List.length).getD 0

/-- The place lies in the plan. -/
def Holds (extent : Extent) (place : Place) : Prop :=
  0 ≤ place.1 ∧ place.1 < extent.height ∧ 0 ≤ place.2 ∧ place.2 < extent.width

instance (extent : Extent) (place : Place) : Decidable (extent.Holds place) :=
  inferInstanceAs (Decidable (_ ∧ _))

/-- The table with the seats of a plan, numbered in their order. -/
def number? (extent : Extent) (places : List Place) : Option SeatTable :=
  places.zipIdx.foldlM (fun table (place, seat) => table.write? place.1.toNat place.2.toNat seat)
    (Array.replicate extent.height (Array.replicate extent.width none))

/-- The next place in a direction, unless it lies outside. -/
def step? (extent : Extent) (place direction : Place) : Option Place :=
  let next := place.ahead direction 1
  if extent.Holds next then some next else none

/-- The seat at the next place in a direction, if there is one. -/
def beside? (extent : Extent) (table : SeatTable) (place direction : Place) : Option (Option Nat) :=
  match extent.step? place direction with
  | none => some none
  | some next => table.at? next.1.toNat next.2.toNat

/-- The first seat in a direction, when one of the next `steps` steps comes to it or leaves the plan. -/
def firstSeat? (extent : Extent) (table : SeatTable) (direction : Place) :
    Nat → Place → Option (Option Nat)
  | 0, _ => none
  | steps + 1, place =>
    match extent.step? place direction with
    | none => some none
    | some next => do
      match ← table.at? next.1.toNat next.2.toNat with
      | some seat => some (some seat)
      | none => extent.firstSeat? table direction steps next

/-- The seats that a look in each direction finds. -/
def around? (look : Place → Option (Option Nat)) : Option (List Nat) := do
  pure ((← directions.mapM look).filterMap id)

/-- The seats next to a place. -/
def adjacent? (extent : Extent) (table : SeatTable) (place : Place) : Option (List Nat) :=
  around? (extent.beside? table place)

/-- The first seats in all directions. No look takes more steps than the plan is high or wide. -/
def visible? (extent : Extent) (table : SeatTable) (place : Place) : Option (List Nat) :=
  around? fun direction => extent.firstSeat? table direction (max extent.height extent.width) place

end Extent

/-- The chart of a plan. -/
def SeatChart.ofRows? (rows : List (List (Option Bool))) : Option SeatChart := do
  let places := (seats rows).map Prod.fst
  let extent := Extent.ofRows rows
  let table ← extent.number? places
  let adjacent ← places.mapM (extent.adjacent? table)
  let visible ← places.mapM (extent.visible? table)
  pure {
    initial := ((seats rows).map Prod.snd).toArray
    adjacent := adjacent.toArray
    visible := visible.toArray }

/-- Whether a seat with `busy` occupied seats around it is occupied after the round. -/
def occupiedNext (tolerance : Nat) (occupied : Bool) (busy : Nat) : Bool :=
  if occupied then busy < tolerance else busy = 0

/-- The seats as they are, those of the next round, and whether a seat has changed in the round. -/
structure Buffers where
  occupied : Array Bool
  next : Array Bool
  changed : Bool
deriving DecidableEq, Repr

namespace Buffers

/-- Both buffers begin with the same seats. -/
def start (initial : Array Bool) : Buffers := ⟨initial, initial, false⟩

/-- Writes what a seat is in the next round. -/
def update? (tolerance : Nat) (buffers : Buffers) (around : List Nat) (seat : Nat) :
    Option Buffers := do
  let busy := (← around.mapM fun other => buffers.occupied[other]?).count true
  let taken ← buffers.occupied[seat]?
  let state := occupiedNext tolerance taken busy
  if inside : seat < buffers.next.size then
    some { buffers with
      next := buffers.next.set seat state
      changed := buffers.changed || state != taken }
  else none

/-- One round, seat by seat. -/
def pass? (neighbours : Array (List Nat)) (tolerance : Nat) (buffers : Buffers) : Option Buffers :=
  neighbours.toList.zipIdx.foldlM (fun buffers (around, seat) => buffers.update? tolerance around seat)
    { buffers with changed := false }

/-- The seats of the next round become the seats as they are. -/
def swap (buffers : Buffers) : Buffers :=
  { buffers with occupied := buffers.next, next := buffers.occupied }

end Buffers

/-- The seats after the first round that changes nothing, when one of the next `rounds` rounds is
it. -/
def settleFrom? (neighbours : Array (List Nat)) (tolerance : Nat) :
    Nat → Buffers → Option (Array Bool)
  | 0, _ => none
  | rounds + 1, buffers => do
    let passed ← buffers.pass? neighbours tolerance
    if passed.changed then settleFrom? neighbours tolerance rounds passed.swap
    else some passed.swap.occupied

/-- The seats after the first round that changes nothing. Seats have two states each, so a run that
does not settle within that many rounds comes back to a state and never does. -/
def settle? (neighbours : Array (List Nat)) (tolerance : Nat) (initial : Array Bool) :
    Option (Array Bool) :=
  settleFrom? neighbours tolerance (1 <<< initial.size) (.start initial)

/-- A place of the plan: floor, an empty seat or an occupied one. -/
def cell? (byte : UInt8) : Option (Option Bool) :=
  match Text.ofByte byte with
  | '.' => some none
  | 'L' => some (some false)
  | '#' => some (some true)
  | _ => none

/-- The chart of the plan that a text draws. -/
def parse (text : Text) : Outcome ParseError SeatChart := do
  let rows ← Outcome.ofExcept (Input.cellGrid "seat" cell? text)
  Outcome.orFault (SeatChart.ofRows? rows)

/-- The number of occupied seats once nothing changes any more. A run that never settles has none. -/
def answer (neighbours : Array (List Nat)) (tolerance : Nat) (initial : Array Bool) :
    Outcome SolveError String := do
  let occupied ← Outcome.orFault (settle? neighbours tolerance initial)
  pure (toString (occupied.toList.count true))

/-- The seating. -/
def puzzle : Puzzle :=
  Puzzle.ofParts parse (fun chart => answer chart.adjacent 4 chart.initial)
    (fun chart => answer chart.visible 5 chart.initial)

end PuzzleCalendar.Seating
