import PuzzleCalendar.Outcome
import PuzzleCalendar.Proofs.Seating.Rounds

/-! # Rounds in two buffers

A pass reads the seats as they are from one buffer and writes them as they are next into the other one,
seat by seat, and notes whether one has changed. What it has written does not come into what it reads, so
the seats change as if all at once, and the passes stop at the first state that a round keeps. The bound
on the passes hides no answer.
-/

namespace PuzzleCalendar.Seating

/-- There are seats around each seat, and no others. -/
structure Fits (neighbours : Array (List Nat)) (seats : Nat) : Prop where
  size : neighbours.size = seats
  inside : ∀ around ∈ neighbours.toList, ∀ other ∈ around, other < seats

variable {neighbours : Array (List Nat)} {tolerance : Nat} {initial occupied : Array Bool}

theorem getD_set {seat other : Nat} {state : Bool} (inside : seat < occupied.size) :
    (occupied.set seat state).getD other false =
      if seat = other then state else occupied.getD other false := by
  simp only [Array.getD_eq_getD_getElem?, Array.getElem?_set]
  split <;> rfl

theorem getElem?_eq_some_getD {seat : Nat} (inside : seat < occupied.size) :
    occupied[seat]? = some (occupied.getD seat false) := by
  simp [inside]

/-- Around a seat every index is that of a seat. -/
theorem Fits.busy_eq (fits : Fits neighbours occupied.size) {seat : Nat}
    (inside : seat < neighbours.size) :
    (neighbours[seat].mapM fun other => occupied[other]?).map (List.count true) =
      some (busy neighbours occupied seat) := by
  have there : neighbours.getD seat [] = neighbours[seat] := by simp [Array.getD, inside]
  have known (other : Nat) (around : other ∈ neighbours[seat]) :
      occupied[other]? = some (occupied.getD other false) :=
    getElem?_eq_some_getD (fits.inside _ (Array.getElem_mem_toList inside) other around)
  rw [mapM_eq_some_map known, Option.map_some, List.count, List.countP_map, busy, there]
  simp only [Function.comp_def, beq_true]

namespace Buffers

/-- What a pass over the first `count` seats has made of the buffers. -/
structure Written (neighbours : Array (List Nat)) (tolerance : Nat) (occupied : Array Bool)
    (count : Nat) (buffers : Buffers) : Prop where
  reads : buffers.occupied = occupied
  size : buffers.next.size = occupied.size
  writes : ∀ seat < count, buffers.next.getD seat false =
    (round neighbours tolerance occupied).getD seat false
  notes : buffers.changed = true ↔ ∃ seat < count,
    (round neighbours tolerance occupied).getD seat false ≠ occupied.getD seat false

variable {buffers : Buffers} {count : Nat}

/-- A pass goes on by one seat. -/
theorem Written.update (written : Written neighbours tolerance occupied count buffers)
    (fits : Fits neighbours occupied.size) (inside : count < neighbours.size) :
    ∃ later, buffers.update? tolerance neighbours[count] count = some later ∧
      Written neighbours tolerance occupied (count + 1) later := by
  obtain ⟨rfl, size, writes, notes⟩ := written
  have seat : count < buffers.occupied.size := fits.size ▸ inside
  have there : count < buffers.next.size := size ▸ seat
  obtain ⟨states, looked, counted⟩ := Option.map_eq_some_iff.mp (fits.busy_eq inside)
  have taken := getElem?_eq_some_getD seat
  have written : (round neighbours tolerance buffers.occupied).getD count false = _ := getD_round seat
  simp only [update?, looked, counted, taken, Option.bind_eq_bind, Option.bind_some, dif_pos there,
    ← written]
  refine ⟨_, rfl, rfl, by simpa using size, fun other before => ?_, ?_⟩
  · rw [getD_set there]
    obtain earlier | rfl := Nat.lt_succ_iff_lt_or_eq.mp before
    · rw [if_neg earlier.ne', writes other earlier]
    · rw [if_pos rfl]
  · simp only [Bool.or_eq_true, bne_iff_ne, notes, Nat.exists_lt_succ_right]

/-- A pass from some seat on comes to its end. -/
theorem Written.foldlM (fits : Fits neighbours occupied.size) {rest : List (List Nat)}
    (written : Written neighbours tolerance occupied count buffers)
    (remaining : neighbours.toList.drop count = rest) (within : count ≤ neighbours.size) :
    ∃ later, (rest.zipIdx count).foldlM (fun buffers (around, seat) =>
        buffers.update? tolerance around seat) buffers = some later ∧
      Written neighbours tolerance occupied neighbours.size later := by
  induction rest generalizing count buffers with
  | nil =>
    have beyond := List.drop_eq_nil_iff.mp remaining
    obtain rfl := Nat.le_antisymm within beyond
    exact ⟨buffers, rfl, written⟩
  | cons around rest ih =>
    have inside : count < neighbours.size := by
      by_contra beyond
      have nothing := List.drop_eq_nil_iff.mpr (Nat.not_lt.mp beyond)
      exact List.cons_ne_nil _ _ (remaining.symm.trans nothing)
    have split := (List.drop_eq_getElem_cons inside).symm.trans remaining
    obtain ⟨rfl, following⟩ := List.cons.inj split
    obtain ⟨next, updated, written⟩ := written.update fits inside
    obtain ⟨later, passed, written⟩ := ih written following inside
    refine ⟨later, ?_, written⟩
    rw [List.zipIdx_cons, List.foldlM_cons, Option.bind_eq_bind, Option.bind_eq_some_iff]
    exact ⟨next, updated, passed⟩

/-- A pass makes one round of all seats at once, and notes whether it has changed a seat. -/
theorem exists_pass? (tolerance : Nat) (fits : Fits neighbours buffers.occupied.size)
    (sizes : buffers.next.size = buffers.occupied.size) :
    ∃ passed, buffers.pass? neighbours tolerance = some passed ∧ passed.occupied = buffers.occupied ∧
      passed.next = round neighbours tolerance buffers.occupied ∧
      (passed.changed = true ↔ ¬ Settled neighbours tolerance buffers.occupied) := by
  have begun : Written neighbours tolerance buffers.occupied 0 { buffers with changed := false } :=
    ⟨rfl, sizes, by simp, by simp⟩
  obtain ⟨passed, done, reads, size, writes, notes⟩ := begun.foldlM fits rfl (Nat.zero_le _)
  have whole : passed.next = round neighbours tolerance buffers.occupied := by
    refine ext_getD (size.trans size_round.symm) fun seat inside => writes seat ?_
    rwa [fits.size, ← size]
  refine ⟨passed, done, reads, whole, notes.trans ⟨?_, ?_⟩⟩
  · rintro ⟨seat, _, differs⟩ settled
    rw [settled] at differs
    contradiction
  · intro changes
    obtain ⟨seat, inside, differs⟩ := exists_getD_ne size_round changes
    rw [size_round, ← fits.size] at inside
    exact ⟨seat, inside, differs⟩

end Buffers

/-- The passes in two buffers find what the rounds of all seats at once find. -/
theorem settleFrom?_eq {rounds : Nat} {buffers : Buffers} (fits : Fits neighbours buffers.occupied.size)
    (sizes : buffers.next.size = buffers.occupied.size) :
    settleFrom? neighbours tolerance rounds buffers =
      settleWithin neighbours tolerance rounds buffers.occupied := by
  induction rounds generalizing buffers with
  | zero => rfl
  | succ rounds ih =>
    obtain ⟨passed, done, reads, whole, notes⟩ := Buffers.exists_pass? tolerance fits sizes
    have swapped : passed.swap.occupied = round neighbours tolerance buffers.occupied := whole
    have sizes : passed.swap.next.size = passed.swap.occupied.size := by
      rw [swapped, size_round, ← reads]
      rfl
    rw [settleFrom?, done, settleWithin]
    by_cases settled : Settled neighbours tolerance buffers.occupied
    · have still : ¬ passed.changed = true := fun changed => notes.mp changed settled
      have same : round neighbours tolerance buffers.occupied = buffers.occupied := settled
      simp only [Option.bind_eq_bind, Option.bind_some, if_neg still, swapped, same, if_pos]
    · have fits : Fits neighbours passed.swap.occupied.size := by
        rwa [swapped, size_round]
      have later := ih fits sizes
      simp only [Option.bind_eq_bind, Option.bind_some, if_pos (notes.mpr settled), later, swapped]
      exact (if_neg settled).symm

theorem settle?_eq_settleWithin (fits : Fits neighbours initial.size) :
    settle? neighbours tolerance initial =
      settleWithin neighbours tolerance (1 <<< initial.size) initial :=
  settleFrom?_eq fits rfl

/-- The search finds the first settled state of the run, however late it comes. -/
theorem settle?_eq_some_iff (fits : Fits neighbours initial.size) {final : Array Bool} :
    settle? neighbours tolerance initial = some final ↔
      ∃ count, occupiedAfter neighbours tolerance initial count = final ∧
        Settled neighbours tolerance final ∧
        ∀ earlier < count, ¬ Settled neighbours tolerance
          (occupiedAfter neighbours tolerance initial earlier) := by
  rw [settle?_eq_settleWithin fits, settleWithin_eq_some_iff, Nat.one_shiftLeft]
  constructor
  · rintro ⟨count, _, found⟩
    exact ⟨count, found⟩
  · rintro ⟨count, rfl, settled, first⟩
    exact ⟨count, count_lt_of_settled settled first, rfl, settled, first⟩

/-- The search finds nothing exactly when no round of the run changes nothing. -/
theorem settle?_eq_none_iff (fits : Fits neighbours initial.size) :
    settle? neighbours tolerance initial = none ↔
      ∀ count, ¬ Settled neighbours tolerance (occupiedAfter neighbours tolerance initial count) := by
  classical
  constructor
  · intro nothing count settled
    have some_settled : ∃ count,
        Settled neighbours tolerance (occupiedAfter neighbours tolerance initial count) := ⟨count, settled⟩
    have found : settle? neighbours tolerance initial = some _ := (settle?_eq_some_iff fits).mpr
      ⟨Nat.find some_settled, rfl, Nat.find_spec some_settled, fun _ => Nat.find_min some_settled⟩
    simp [nothing] at found
  · intro never
    refine Option.eq_none_iff_forall_ne_some.mpr fun final found => ?_
    obtain ⟨count, rfl, settled, _⟩ := (settle?_eq_some_iff fits).mp found
    exact never count settled

end PuzzleCalendar.Seating
