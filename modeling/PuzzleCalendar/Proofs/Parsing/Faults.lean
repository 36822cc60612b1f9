import Mathlib.Data.List.Forall2
import PuzzleCalendar.Input

/-! # Where readings fault

Readings one after the other fault when one of them does and all before it have values: a report that
comes first hides the fault.
-/

namespace PuzzleCalendar

variable {ε : Type} {α β : Type}

/-- A reading faults after readings with values. -/
def FaultsIn (read : α → Outcome ε β) (items : List α) : Prop :=
  ∃ before item after, items = before ++ item :: after ∧
    (∀ earlier ∈ before, ∃ value, read earlier = .ok value) ∧ read item = Outcome.fault

variable {read : α → Outcome ε β} {item : α} {items : List α}

theorem not_faultsIn_nil : ¬ FaultsIn read [] := by
  rintro ⟨before, item, after, same, -⟩
  simp at same

theorem faultsIn_cons_iff : FaultsIn read (item :: items) ↔
    read item = Outcome.fault ∨ (∃ value, read item = .ok value) ∧ FaultsIn read items := by
  constructor
  · rintro ⟨before, other, after, same, values, fault⟩
    cases before with
    | nil =>
      obtain ⟨rfl, -⟩ := List.cons_eq_cons.mp same
      exact .inl fault
    | cons first before =>
      obtain ⟨rfl, rfl⟩ := List.cons_eq_cons.mp same
      obtain ⟨value, values⟩ := List.forall_mem_cons.mp values
      exact .inr ⟨value, before, other, after, rfl, values, fault⟩
  · rintro (fault | ⟨value, before, other, after, rfl, values, fault⟩)
    · exact ⟨[], item, items, rfl, by simp, fault⟩
    · exact ⟨item :: before, other, after, rfl, List.forall_mem_cons.mpr ⟨value, values⟩, fault⟩

theorem not_faultsIn (never : ∀ item, read item ≠ Outcome.fault) : ¬ FaultsIn read items := by
  rintro ⟨_, item, _, _, _, fault⟩
  exact never item fault

theorem mapM_eq_fault_iff : items.mapM read = Outcome.fault ↔ FaultsIn read items := by
  induction items with
  | nil => exact iff_of_false Outcome.ok_ne_fault not_faultsIn_nil
  | cons item items ih =>
    rw [List.mapM_cons, faultsIn_cons_iff, bind_eq_fault_iff]
    refine or_congr_right ?_
    constructor
    · rintro ⟨value, now, later⟩
      obtain fault | ⟨_, _, fault⟩ := bind_eq_fault_iff.mp later
      · exact ⟨⟨value, now⟩, ih.mp fault⟩
      · exact absurd fault Outcome.ok_ne_fault
    · rintro ⟨⟨value, now⟩, later⟩
      exact ⟨value, now, bind_eq_fault_iff.mpr (.inl (ih.mpr later))⟩

/-- Readings one after the other give the value of each item. -/
theorem mapM_eq_ok_iff {read : α → Except ε β} {values : List β} : items.mapM read = .ok values ↔
    List.Forall₂ (fun item value => read item = .ok value) items values := by
  induction items generalizing values with
  | nil => simp [pure, Except.pure, eq_comm]
  | cons item items ih =>
    rw [List.mapM_cons, bind_eq_ok_iff, List.forall₂_cons_left_iff]
    refine exists_congr fun value => ?_
    rw [bind_eq_ok_iff]
    constructor
    · rintro ⟨first, rest, later, same⟩
      exact ⟨rest, first, ih.mp later, (Except.ok.inj same).symm⟩
    · rintro ⟨rest, first, later, rfl⟩
      exact ⟨first, rest, ih.mpr later, rfl⟩

/-- What is alike for the pairs of two lists is alike for the lists. -/
theorem map_eq_map_of_forall₂ {γ : Type} {related : α → β → Prop} {values : List β} {look : α → γ}
    {other : β → γ} (pairs : List.Forall₂ related items values)
    (alike : ∀ item value, related item value → look item = other value) :
    items.map look = values.map other := by
  rw [← List.forall₂_eq_eq_eq, List.forall₂_map_left_iff, List.forall₂_map_right_iff]
  exact pairs.imp alike

namespace Input

variable {read : Text → Outcome String α} {lines : List Text} {text : Text} {number : Nat}

theorem collect_eq_none_iff :
    collect (fun line => (read line).result?) number lines = none ↔ FaultsIn read lines := by
  induction lines generalizing number with
  | nil => exact iff_of_false (by simp [collect]) not_faultsIn_nil
  | cons line lines ih =>
    rw [collect, faultsIn_cons_iff]
    rcases found : read line with (detail | _) | value
    · exact iff_of_false (by simp [Outcome.result?]) (by simp [Outcome.fault])
    · exact iff_of_true (by simp [Outcome.result?]) (.inl rfl)
    · rw [show Outcome.result? (.ok value : Outcome String α) = some (.ok value) from rfl,
        Option.bind_eq_bind, Option.bind_some]
      have more : collect (fun line => (read line).result?) (number + 1) lines = none ↔ _ := ih
      rw [← more]
      cases collect (fun line => (read line).result?) (number + 1) lines with
      | none => simp
      | some result => cases result <;> simp [Outcome.fault]

theorem collect_eq_some_ok_iff {values : List α} :
    collect (fun line => (read line).result?) number lines = some (.ok values) ↔
      List.Forall₂ (fun line value => read line = .ok value) lines values := by
  induction lines generalizing number values with
  | nil => simp [collect, eq_comm]
  | cons line lines ih =>
    rw [collect, List.forall₂_cons_left_iff]
    rcases found : read line with (detail | _) | value
    · simp [Outcome.result?]
    · simp [Outcome.result?]
    · rw [show Outcome.result? (.ok value : Outcome String α) = some (.ok value) from rfl,
        Option.bind_eq_bind, Option.bind_some]
      constructor
      · intro collected
        obtain ⟨_ | rest, later, same⟩ := Option.bind_eq_some_iff.mp collected
        · simp at same
        · obtain rfl : value :: rest = values := by simpa using same
          exact ⟨value, rest, rfl, ih.mp later, rfl⟩
      · rintro ⟨first, rest, same, later, rfl⟩
        obtain rfl : value = first := Except.ok.inj same
        have more : collect (fun line => (read line).result?) (number + 1) lines = some (.ok rest) :=
          ih.mpr later
        rw [more]
        rfl

/-- Reading lines gives the value of each line. -/
theorem readFallibleLines_eq_ok_iff {values : List α} : readFallibleLines read text = .ok values ↔
    List.Forall₂ (fun line value => read line = .ok value) (recordLines text) values := by
  have values_iff : collect (fun line => (read line).result?) 1 (recordLines text) = some (.ok values) ↔ _ :=
    collect_eq_some_ok_iff
  rw [readFallibleLines, readLinesM, ← values_iff]
  cases collect (fun line => (read line).result?) 1 (recordLines text) with
  | none => simp [Outcome.ofResult?, Outcome.fault]
  | some result => simp [Outcome.ofResult?, Outcome.ofExcept_eq_ok_iff]

/-- Reading lines faults at a line that faults after lines with values. -/
theorem readFallibleLines_eq_fault_iff :
    readFallibleLines read text = Outcome.fault ↔ FaultsIn read (recordLines text) := by
  have none_iff : collect (fun line => (read line).result?) 1 (recordLines text) = none ↔ _ :=
    collect_eq_none_iff
  rw [readFallibleLines, readLinesM, ← none_iff]
  cases collect (fun line => (read line).result?) 1 (recordLines text) with
  | none => simp [Outcome.ofResult?]
  | some result => simp [Outcome.ofResult?, Outcome.ofExcept_ne_fault]

end Input

end PuzzleCalendar
