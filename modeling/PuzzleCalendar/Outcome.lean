/-! # Outcomes

A computation ends with a value, with an error that it reports, or with a fault. A fault is an
integer that left its width or a place outside its table: it stops the computation without a report.
-/

namespace PuzzleCalendar

/-- Why a computation gives no value. -/
inductive Failure (ε : Type) where
  | reported (error : ε)
  | fault
deriving DecidableEq, Repr

/-- A value, a reported error or a fault. -/
abbrev Outcome (ε : Type) (α : Type u) := Except (Failure ε) α

namespace Outcome

variable {ε : Type} {α : Type u}

/-- The outcome that reports `error`. -/
def report (error : ε) : Outcome ε α := .error (.reported error)

/-- The outcome without a value or a report. -/
def fault : Outcome ε α := .error .fault

/-- A value, or a fault where there is none. -/
def orFault : Option α → Outcome ε α
  | some value => .ok value
  | none => fault

/-- A value, or the report of `error` where there is none. -/
def orReport (error : ε) : Option α → Outcome ε α
  | some value => .ok value
  | none => report error

/-- A computation that cannot fault. -/
def ofExcept : Except ε α → Outcome ε α
  | .ok value => .ok value
  | .error error => report error

/-- The outcome with `change` applied to an error that it reports. -/
def mapReport {δ : Type} (change : ε → δ) : Outcome ε α → Outcome δ α
  | .ok value => .ok value
  | .error (.reported error) => report (change error)
  | .error .fault => fault

/-- The value or the reported error of an outcome; a fault has neither. -/
def result? : Outcome ε α → Option (Except ε α)
  | .ok value => some (.ok value)
  | .error (.reported error) => some (.error error)
  | .error .fault => none

/-- The outcome with a result, or a fault where there is none. -/
def ofResult? : Option (Except ε α) → Outcome ε α
  | some result => ofExcept result
  | none => fault

@[simp] theorem result?_ofResult? (result : Option (Except ε α)) :
    (ofResult? result).result? = result := by
  rcases result with _ | _ | _ <;> rfl

@[simp] theorem ofResult?_result? (outcome : Outcome ε α) : ofResult? outcome.result? = outcome := by
  rcases outcome with (_ | _) | _ <;> rfl

theorem orFault_eq_ok_iff {found : Option α} {value : α} :
    (orFault found : Outcome ε α) = .ok value ↔ found = some value := by
  cases found <;> simp [orFault, fault]

theorem orReport_eq_ok_iff {error : ε} {found : Option α} {value : α} :
    orReport error found = .ok value ↔ found = some value := by
  cases found <;> simp [orReport, report]

theorem orReport_eq_report_iff {error : ε} {found : Option α} :
    (orReport error found = report error) ↔ found = none := by
  cases found <;> simp [orReport, report]

theorem ofExcept_eq_ok_iff {result : Except ε α} {value : α} :
    ofExcept result = .ok value ↔ result = .ok value := by
  cases result <;> simp [ofExcept, report]

theorem ok_ne_fault {value : α} : (.ok value : Outcome ε α) ≠ fault := by
  simp [fault]

theorem report_ne_fault {error : ε} : (report error : Outcome ε α) ≠ fault := by
  simp [report, fault]

theorem ofExcept_ne_fault {result : Except ε α} : ofExcept result ≠ fault := by
  cases result <;> simp [ofExcept, report, fault]

theorem exists_eq_ofExcept_iff {outcome : Outcome ε α} :
    (∃ result, outcome = ofExcept result) ↔ outcome ≠ fault := by
  constructor
  · rintro ⟨result, rfl⟩
    exact ofExcept_ne_fault
  · intro answers
    rcases outcome with (error | _) | value
    · exact ⟨.error error, rfl⟩
    · exact absurd rfl answers
    · exact ⟨.ok value, rfl⟩

theorem orReport_ne_fault {error : ε} {found : Option α} : orReport error found ≠ fault := by
  cases found <;> simp [orReport, report, fault]

theorem orFault_eq_fault_iff {found : Option α} : (orFault found : Outcome ε α) = fault ↔ found = none := by
  cases found <;> simp [orFault, fault]

theorem mapReport_eq_fault_iff {δ : Type} {change : ε → δ} {outcome : Outcome ε α} :
    outcome.mapReport change = fault ↔ outcome = fault := by
  rcases outcome with (_ | _) | _ <;> simp [mapReport, report, fault]

theorem mapReport_eq_ok_iff {δ : Type} {change : ε → δ} {outcome : Outcome ε α} {value : α} :
    outcome.mapReport change = .ok value ↔ outcome = .ok value := by
  rcases outcome with (_ | _) | _ <;> simp [mapReport, report, fault]

end Outcome

section Steps

variable {ε δ : Type} {α β : Type}

/-- A computation of two steps gives a value when both steps do. -/
theorem bind_eq_ok_iff {first : Except ε α} {second : α → Except ε β} {value : β} :
    first >>= second = .ok value ↔ ∃ middle, first = .ok middle ∧ second middle = .ok value := by
  cases first <;> simp [bind, Except.bind]

/-- A computation of two steps reports an error when one of them does. -/
theorem bind_eq_report_iff {first : Outcome ε α} {second : α → Outcome ε β} {error : ε} :
    first >>= second = Outcome.report error ↔ first = Outcome.report error ∨
      ∃ middle, first = .ok middle ∧ second middle = Outcome.report error := by
  cases first <;> simp [bind, Except.bind, Outcome.report]

/-- A computation of two steps faults when one of them does. -/
theorem bind_eq_fault_iff {first : Outcome ε α} {second : α → Outcome ε β} :
    first >>= second = Outcome.fault ↔ first = Outcome.fault ∨
      ∃ middle, first = .ok middle ∧ second middle = Outcome.fault := by
  cases first <;> simp [bind, Except.bind, Outcome.fault]

theorem bind_ne_fault {first : Outcome ε α} {second : α → Outcome ε β} (start : first ≠ Outcome.fault)
    (next : ∀ middle, first = .ok middle → second middle ≠ Outcome.fault) :
    first >>= second ≠ Outcome.fault := by
  rw [ne_eq, bind_eq_fault_iff, not_or, not_exists]
  exact ⟨start, fun middle both => next middle both.1 both.2⟩

theorem mapM_eq_some_map {look : α → Option β} {found : α → β} {items : List α}
    (each : ∀ item ∈ items, look item = some (found item)) :
    items.mapM look = some (items.map found) := by
  induction items with
  | nil => rfl
  | cons item items ih =>
    obtain ⟨first, others⟩ := List.forall_mem_cons.mp each
    rw [List.mapM_cons, first, ih others]
    rfl

/-- One value that is missing leaves none. -/
theorem mapM_eq_none_of_mem {look : α → Option β} {items : List α} {item : α} (member : item ∈ items)
    (missing : look item = none) : items.mapM look = none := by
  induction items with
  | nil => contradiction
  | cons first rest ih =>
    rw [List.mapM_cons]
    rcases List.mem_cons.mp member with rfl | later
    · rw [missing]
      rfl
    · cases look first with
      | none => rfl
      | some value => simp [ih later]

/-- All values are there when each of them is. -/
theorem mapM_id_eq_some_iff {found : List (Option α)} {values : List α} :
    found.mapM id = some values ↔ found = values.map some := by
  induction found generalizing values with
  | nil => cases values <;> simp
  | cons first rest ih =>
    cases first with
    | none => cases values <;> simp
    | some value =>
      simp only [List.mapM_cons, id_eq, Option.bind_eq_bind, Option.bind_some, Option.bind_eq_some_iff, ih,
        Option.pure_def, Option.some.injEq]
      constructor
      · rintro ⟨later, rfl, rfl⟩
        rfl
      · cases values with
        | nil => nofun
        | cons first later =>
          rintro ⟨⟩
          exact ⟨later, rfl, rfl⟩

/-- A step that goes on with a value on a condition, and faults otherwise. -/
theorem bind_orFault_ite {condition : Prop} [Decidable condition] {value : α}
    {next : α → Outcome ε β} :
    Outcome.orFault (if condition then some value else none) >>= next =
      if condition then next value else Outcome.fault := by
  split <;> rfl

theorem map_eq_ok_iff {result : Except ε α} {change : α → β} {value : β} :
    result.map change = .ok value ↔ ∃ inner, result = .ok inner ∧ change inner = value := by
  cases result <;> simp [Except.map]

theorem map_eq_fault_iff {outcome : Outcome ε α} {change : α → β} :
    outcome.map change = Outcome.fault ↔ outcome = Outcome.fault := by
  cases outcome <;> simp [Except.map, Outcome.fault]

theorem mapError_eq_ok_iff {result : Except ε α} {change : ε → δ} {value : α} :
    result.mapError change = .ok value ↔ result = .ok value := by
  cases result with
  | ok found =>
    have passed : (Except.ok found : Except ε α).mapError change = .ok found := rfl
    rw [passed, Except.ok.injEq, Except.ok.injEq]
  | error reason =>
    have failed : (Except.error reason : Except ε α).mapError change = .error (change reason) := rfl
    simp [failed]

end Steps

end PuzzleCalendar
