import Mathlib.Data.Nat.Digits.Defs
import Mathlib.Data.List.Sort
import Mathlib.Order.Bounds.Basic
import PuzzleCalendar.Proofs.Lines.Layout
import PuzzleCalendar.Puzzles.BoardingPass
import PuzzleCalendar.Text.Slice
import Std.Data.String.ToNat

/-! # The free seat

A pass spells its seat in binary digits. In the rising list of the seats that are taken, the neighbours of a
free seat stand side by side, behind copies of the lower one and before copies of the upper one. So the first
two entries that are two apart enclose the least seat that is free between two taken ones, and there is none
when no two entries are.
-/

namespace PuzzleCalendar.BoardingPass

open Text

/-- Ten letters, each of them for the lower or the upper half of what is left. -/
def IsPass (pass : Text) : Prop := pass.length = 10 ∧ ∀ char ∈ pass, char ∈ ['F', 'L', 'B', 'R']

/-- The number whose binary digits a pass spells: an upper half is a one. -/
def spelled (pass : Text) : Nat :=
  Nat.ofDigits 2 (pass.reverse.map fun char => if char = 'B' ∨ char = 'R' then 1 else 0)

/-- A seat that is not taken between two seats that are. -/
structure FreeBetween (taken : List Nat) (seat : Nat) : Prop where
  free : seat ∉ taken
  below : ∃ lower ∈ taken, lower + 1 = seat
  above : seat + 1 ∈ taken

section Spelling

variable {pass : Text} {char : Char}

theorem spelled_cons (char : Char) (pass : Text) : spelled (char :: pass) =
    (if char = 'B' ∨ char = 'R' then 1 else 0) * 2 ^ pass.length + spelled pass := by
  simp only [spelled, List.reverse_cons, List.map_append, List.map_cons, List.map_nil,
    Nat.ofDigits_append, Nat.ofDigits_singleton, List.length_map, List.length_reverse]
  ring

theorem letter_cases (letter : char ∈ ['F', 'L', 'B', 'R']) :
    char = 'F' ∨ char = 'L' ∨ char = 'B' ∨ char = 'R' := by
  simpa using letter

theorem bit?_eq (letter : char ∈ ['F', 'L', 'B', 'R']) :
    bit? char = some (if char = 'B' ∨ char = 'R' then 1 else 0) := by
  obtain rfl | rfl | rfl | rfl := letter_cases letter <;> rfl

/-- Bits that are read onto a number are its last binary digits. -/
theorem readBits_eq (letters : ∀ char ∈ pass, char ∈ ['F', 'L', 'B', 'R']) (number : Nat) :
    readBits number pass = .ok (number * 2 ^ pass.length + spelled pass) := by
  induction pass generalizing number with
  | nil => simp [readBits, spelled]
  | cons char pass ih =>
    obtain ⟨letter, letters⟩ := List.forall_mem_cons.mp letters
    rw [readBits, bit?_eq letter, spelled_cons, List.length_cons, Nat.pow_succ]
    refine (ih letters _).trans (congrArg Except.ok ?_)
    ring

theorem IsPass.seatNumber_eq (valid : IsPass pass) : seatNumber pass = .ok (spelled pass) := by
  have small : ∀ char ∈ pass, char.toNat < 128 := by
    intro char member
    obtain rfl | rfl | rfl | rfl := letter_cases (valid.2 char member) <;> decide
  rw [seatNumber, byteLength_eq_length small, if_pos valid.1, readBits_eq valid.2, Nat.zero_mul, Nat.zero_add]

theorem IsPass.solid (valid : IsPass pass) : pass ≠ [] ∧ ∀ char ∈ pass, isBlank char = false := by
  constructor
  · rintro rfl
    exact absurd valid.1 (by decide)
  · intro char member
    obtain rfl | rfl | rfl | rfl := letter_cases (valid.2 char member) <;> decide

end Spelling

section Gaps

variable {seats : List Nat} {first second seat : Nat}

theorem le_of_mem_rising (rising : (first :: seats).Pairwise (· ≤ ·)) (taken : seat ∈ first :: seats) :
    first ≤ seat :=
  List.forall_mem_cons.mpr ⟨Nat.le_refl first, (List.pairwise_cons.mp rising).1⟩ seat taken

/-- The first two of rising seats make no difference unless they are two apart. -/
theorem freeBetween_cons_cons_iff (rising : (first :: second :: seats).Pairwise (· ≤ ·))
    (near : second - first ≠ 2) :
    FreeBetween (first :: second :: seats) seat ↔ FreeBetween (second :: seats) seat := by
  constructor
  · rintro ⟨free, ⟨lower, taken, rfl⟩, above⟩
    have least := le_of_mem_rising rising taken
    have next := le_of_mem_rising rising (List.mem_cons_of_mem _ List.mem_cons_self)
    have free := List.not_mem_of_not_mem_cons free
    have apart : lower + 1 ≠ second := List.ne_of_not_mem_cons free
    have above : lower + 1 + 1 ∈ second :: seats := (List.mem_cons.mp above).resolve_left (by omega)
    have bound := le_of_mem_rising rising.of_cons above
    refine ⟨free, ⟨lower, ?_, rfl⟩, above⟩
    obtain same | later := List.mem_cons.mp taken
    · -- Only another copy of the lower neighbour is left between it and the upper one.
      obtain rfl : lower = second := by omega
      exact List.mem_cons_self
    · exact later
  · rintro ⟨free, ⟨lower, taken, rfl⟩, above⟩
    have bound := le_of_mem_rising rising (List.mem_cons_of_mem _ taken)
    refine ⟨?_, ⟨lower, List.mem_cons_of_mem _ taken, rfl⟩, List.mem_cons_of_mem _ above⟩
    exact List.not_mem_cons_of_ne_of_not_mem (by omega) free

theorem isLeast_of_gap? (rising : seats.Pairwise (· ≤ ·)) (found : gap? seats = some seat) :
    IsLeast {seat | FreeBetween seats seat} seat := by
  fun_induction gap? seats with
  | case1 first second seats two =>
    obtain rfl := Option.some.inj found
    have upper : first + 1 + 1 = second := by omega
    constructor
    · refine ⟨fun taken => ?_, ⟨first, List.mem_cons_self, rfl⟩, ?_⟩
      · have later := (List.mem_cons.mp taken).resolve_left (by omega)
        have bound := le_of_mem_rising rising.of_cons later
        omega
      · rw [upper]
        exact List.mem_cons_of_mem _ List.mem_cons_self
    · rintro _ ⟨-, ⟨lower, taken, rfl⟩, -⟩
      exact Nat.succ_le_succ (le_of_mem_rising rising taken)
  | case2 first second seats near ih =>
    simp only [freeBetween_cons_cons_iff rising near]
    exact ih rising.of_cons found
  | case3 => contradiction

theorem not_freeBetween_of_gap? (rising : seats.Pairwise (· ≤ ·)) (none : gap? seats = none) :
    ¬ FreeBetween seats seat := by
  fun_induction gap? seats with
  | case1 => contradiction
  | case2 first second seats near ih =>
    rw [freeBetween_cons_cons_iff rising near]
    exact ih rising.of_cons none
  | case3 seats few =>
    rintro ⟨free, ⟨lower, taken, rfl⟩, above⟩
    match seats with
    | [] => exact absurd taken List.not_mem_nil
    | [only] =>
      have one := List.mem_singleton.mp taken
      have two := List.mem_singleton.mp above
      omega
    | first :: second :: seats => exact few first second seats rfl

theorem gap?_eq_some_iff (rising : seats.Pairwise (· ≤ ·)) :
    gap? seats = some seat ↔ IsLeast {seat | FreeBetween seats seat} seat := by
  refine ⟨isLeast_of_gap? rising, fun least => ?_⟩
  cases found : gap? seats with
  | none => exact absurd least.1 (not_freeBetween_of_gap? rising found)
  | some other => rw [(isLeast_of_gap? rising found).unique least]

theorem gap?_eq_none_iff (rising : seats.Pairwise (· ≤ ·)) :
    gap? seats = none ↔ ¬ ∃ seat, FreeBetween seats seat := by
  refine ⟨fun none ⟨seat, free⟩ => not_freeBetween_of_gap? rising none free, fun none => ?_⟩
  cases found : gap? seats with
  | none => rfl
  | some seat => exact absurd ⟨seat, (isLeast_of_gap? rising found).1⟩ none

/-- It makes no difference in which order and how often seats are listed. -/
theorem freeBetween_congr {others : List Nat} (alike : ∀ seat, seat ∈ seats ↔ seat ∈ others) :
    FreeBetween seats seat ↔ FreeBetween others seat := by
  constructor
  · rintro ⟨free, ⟨lower, taken, rfl⟩, above⟩
    exact ⟨mt (alike _).mpr free, ⟨lower, (alike _).mp taken, rfl⟩, (alike _).mp above⟩
  · rintro ⟨free, ⟨lower, taken, rfl⟩, above⟩
    exact ⟨mt (alike _).mp free, ⟨lower, (alike _).mpr taken, rfl⟩, (alike _).mpr above⟩

end Gaps

section Parts

variable {passes : List Text} {seats : List Nat} {text : Text} {seat : Nat}

theorem freeSeat_eq_ok_iff : freeSeat seats = .ok (toString seat) ↔ gap? seats = some seat := by
  rw [freeSeat, bind_eq_ok_iff]
  simp only [Outcome.orReport_eq_ok_iff]
  constructor
  · rintro ⟨other, found, same⟩
    rw [found, Nat.repr_inj.mp (Except.ok.inj same)]
  · exact fun found => ⟨seat, found, rfl⟩

theorem freeSeat_eq_report_iff :
    freeSeat seats = Outcome.report (.noSolution "no free seat between two taken ones") ↔
      gap? seats = none := by
  rw [freeSeat, bind_eq_report_iff, Outcome.orReport_eq_report_iff]
  refine or_iff_left ?_
  rintro ⟨other, -, same⟩
  exact absurd same (by simp [Outcome.report, pure, Except.pure])

theorem parse_of_laidOut (valid : ∀ pass ∈ passes, IsPass pass) (laid : Input.LaidOut passes text) :
    parse text = .ok ((passes.map spelled).mergeSort (· ≤ ·)) := by
  have read : Input.readLines (fun line => (seatNumber line).mapError PassError.message) text =
      .ok (passes.map spelled) := by
    rw [Input.readLines_eq_ok_iff, laid.recordLines_of_solid fun pass listed => (valid pass listed).solid,
      List.map_map]
    refine List.map_congr_left fun pass listed => ?_
    rw [(valid pass listed).seatNumber_eq]
    rfl
  rw [parse, read]
  rfl

/-- Passes are read in any order and however often each of them is listed, however they are laid out. The
second part then answers with the least seat that no pass spells while passes spell the seats on both sides
of it, and reports that there is no solution exactly when there is no such seat. -/
theorem freeSeat_of_passes (valid : ∀ pass ∈ passes, IsPass pass) (laid : Input.LaidOut passes text) :
    ∃ seats, parse text = .ok seats ∧ seats.Perm (passes.map spelled) ∧
      (∀ seat, freeSeat seats = .ok (toString seat) ↔
        IsLeast {seat | FreeBetween (passes.map spelled) seat} seat) ∧
      (freeSeat seats = Outcome.report (.noSolution "no free seat between two taken ones") ↔
        ¬ ∃ seat, FreeBetween (passes.map spelled) seat) := by
  have rising := List.pairwise_mergeSort' (· ≤ ·) (passes.map spelled)
  have alike (seat : Nat) : FreeBetween ((passes.map spelled).mergeSort (· ≤ ·)) seat ↔
      FreeBetween (passes.map spelled) seat := freeBetween_congr fun _ => List.mem_mergeSort
  refine ⟨_, parse_of_laidOut valid laid, List.mergeSort_perm _ _, fun seat => ?_, ?_⟩
  · rw [freeSeat_eq_ok_iff, gap?_eq_some_iff rising]
    simp only [alike]
  · rw [freeSeat_eq_report_iff, gap?_eq_none_iff rising]
    simp only [alike]

theorem freeSeat_of_passes_twice_taken :
    (∀ pass ∈ ["FBFBBFFRRR", "FBFBBFFRLR", "FBFBBFFRLL", "FBFBBFFRLR"].map String.toList, IsPass pass) ∧
    Input.LaidOut (["FBFBBFFRRR", "FBFBBFFRLR", "FBFBBFFRLL", "FBFBBFFRLR"].map String.toList)
      "FBFBBFFRRR\n FBFBBFFRLR\r\nFBFBBFFRLL\nFBFBBFFRLR".toList ∧
    ∃ seats, parse "FBFBBFFRRR\n FBFBBFFRLR\r\nFBFBBFFRLL\nFBFBBFFRLR".toList = .ok seats ∧
      freeSeat seats = .ok "358" := by
  have valid : ∀ pass ∈ ["FBFBBFFRRR", "FBFBBFFRLR", "FBFBBFFRLL", "FBFBBFFRLR"].map String.toList,
      IsPass pass := by
    have letters : ∀ pass ∈ ["FBFBBFFRRR", "FBFBBFFRLR", "FBFBBFFRLL", "FBFBBFFRLR"].map String.toList,
        pass.length = 10 ∧ pass.all (['F', 'L', 'B', 'R'].contains ·) = true := by decide
    exact fun pass member => (letters pass member).imp_right fun all char inside =>
      List.contains_iff_mem.mp (List.all_eq_true.mp all char inside)
  have laid : Input.LaidOut (["FBFBBFFRRR", "FBFBBFFRLR", "FBFBBFFRLL", "FBFBBFFRLR"].map String.toList)
      ([] ++ "FBFBBFFRRR".toList ++ [] ++ ['\n'] ++ ([' '] ++ "FBFBBFFRLR".toList ++ [] ++ ['\r', '\n'] ++
        ([] ++ "FBFBBFFRLL".toList ++ [] ++ ['\n'] ++ ([] ++ "FBFBBFFRLR".toList ++ [])))) :=
    .line (by decide) (by decide) (.inl rfl) (.line (by decide) (by decide) (.inr rfl)
      (.line (by decide) (by decide) (.inl rfl) (.last (by decide) (by decide))))
  obtain ⟨seats, read, -, answer, -⟩ := freeSeat_of_passes valid laid
  refine ⟨valid, laid, seats, read, (answer 358).mpr ?_⟩
  have taken : (["FBFBBFFRRR", "FBFBBFFRLR", "FBFBBFFRLL", "FBFBBFFRLR"].map String.toList).map spelled =
      [359, 357, 356, 357] := by decide +kernel
  rw [taken]
  refine ⟨⟨by decide, ⟨357, by decide, rfl⟩, by decide⟩, ?_⟩
  rintro seat ⟨free, ⟨lower, below, rfl⟩, -⟩
  simp only [List.mem_cons, List.not_mem_nil, or_false] at free below
  omega

end Parts

end PuzzleCalendar.BoardingPass
