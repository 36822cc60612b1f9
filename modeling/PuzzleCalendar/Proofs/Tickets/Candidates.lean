import Mathlib.Data.List.Nodup
import PuzzleCalendar.Puzzles.Tickets

/-! # Candidates for the places of a ticket

With 1 to 64 rules, all of them have a bit in a word of 64 bits, and neither a shift nor a place in the
list of rules is out of range. The candidates of a place are then the words whose bits are the numbers of
the rules that accept the value there of every valid ticket.
-/

namespace PuzzleCalendar.Tickets

open Text

/-- The rule of this number accepts the value at the place of every valid ticket. -/
def Notes.Fits (notes : Notes) (number place : Nat) : Prop :=
  ∃ rule, notes.rules[number]? = some rule ∧
    ∀ ticket ∈ notes.valid, ∀ value, ticket[place]? = some value → rule.accepts value = true

/-- The set at a place contains the rule of this number. -/
def Offers (slots : List RuleSet) (place number : Nat) : Prop :=
  ∃ slot, slots[place]? = some slot ∧ slot.getLsbD number = true

/-- The set contains the rule of this number and no other. -/
def Only (slot : RuleSet) (number : Nat) : Prop :=
  ∀ other, slot.getLsbD other = true ↔ other = number

/-- The numbers of the rules in a set. -/
def numbers (slot : RuleSet) : List Nat :=
  (List.range 64).filter slot.getLsbD

variable {slot single resolved : RuleSet} {slots : List RuleSet} {rules : List Rule}
  {number place : Nat}

section Bits

@[simp] theorem mem_numbers : number ∈ numbers slot ↔ slot.getLsbD number = true := by
  simp only [numbers, List.mem_filter, List.mem_range, and_iff_right_iff_imp]
  exact BitVec.lt_of_getLsbD

theorem nodup_numbers (slot : RuleSet) : (numbers slot).Nodup :=
  List.nodup_range.filter _

theorem cpopNatRec_eq_countP (slot : RuleSet) (bits : Nat) :
    slot.cpopNatRec bits 0 = (List.range bits).countP slot.getLsbD := by
  induction bits with
  | zero => rfl
  | succ bits ih =>
    rw [BitVec.cpopNatRec_succ, BitVec.cpopNatRec_add, ih, List.range_succ, List.countP_append]
    cases holds : slot.getLsbD bits <;> simp [holds]

/-- The count of ones counts the rules. -/
theorem toNat_cpop_eq_length (slot : RuleSet) : slot.cpop.toNat = (numbers slot).length := by
  rw [BitVec.toNat_cpop, cpopNatRec_eq_countP, List.countP_eq_length_filter, numbers]

theorem only_iff_numbers_eq : Only slot number ↔ numbers slot = [number] := by
  constructor
  · intro only
    refine List.perm_singleton.mp ?_
    refine (List.perm_ext_iff_of_nodup (nodup_numbers slot) (List.nodup_singleton number)).mpr ?_
    intro other
    rw [mem_numbers, List.mem_singleton, only other]
  · intro same other
    rw [← mem_numbers, same, List.mem_singleton]

theorem toNat_cpop_eq_one_iff : slot.cpop.toNat = 1 ↔ ∃ number, Only slot number := by
  simp only [toNat_cpop_eq_length, List.length_eq_one_iff, only_iff_numbers_eq]

theorem cpop_eq_one_iff : slot.cpop = 1 ↔ ∃ number, Only slot number := by
  rw [← toNat_cpop_eq_one_iff, ← BitVec.toNat_inj]
  rfl

theorem Only.ext (one : Only slot number) (two : Only single number) : slot = single := by
  refine BitVec.eq_of_getLsbD_eq fun other _ => ?_
  rw [Bool.eq_iff_iff, one other, two other]

theorem Only.unique {other : Nat} (one : Only slot number) (two : Only slot other) :
    number = other :=
  (two number).mp ((one number).mpr rfl)

/-- Clearing a single bit takes its rule from a set and no other. -/
theorem Only.getLsbD_clear (only : Only single number) {other : Nat} :
    (slot &&& ~~~single).getLsbD other = true ↔ slot.getLsbD other = true ∧ other ≠ number := by
  rw [BitVec.getLsbD_and, BitVec.getLsbD_not, Bool.and_eq_true, Bool.and_eq_true, decide_eq_true_eq,
    Bool.not_eq_true', ← Bool.not_eq_true, only other]
  exact and_congr_right fun holds => and_iff_right (BitVec.lt_of_getLsbD holds)

/-- The trailing zeros of a single bit give its number. -/
theorem Only.toNat_ctz (only : Only slot number) : slot.ctz.toNat = number := by
  refine (only _).mp (BitVec.getLsbD_true_ctz_of_ne_zero fun nothing => ?_)
  have holds := (only number).mpr rfl
  simp [nothing] at holds

theorem only_of_single? (made : RuleSet.single? number = some single) : Only single number := by
  unfold RuleSet.single? at made
  split at made
  · rename_i inside
    obtain rfl := Option.some.inj made
    intro other
    simp only [BitVec.getLsbD_shiftLeft, BitVec.getLsbD_one, Bool.and_eq_true, decide_eq_true_eq,
      Bool.not_eq_true', decide_eq_false_iff_not]
    omega
  · contradiction

theorem exists_single? (inside : number < 64) : ∃ single, RuleSet.single? number = some single :=
  ⟨_, if_pos inside⟩

/-- From 1 to 64 rules have a word of their numbers. -/
theorem exists_all? {count : Nat} (present : 1 ≤ count) (few : count ≤ 64) :
    ∃ all, RuleSet.all? count = some all ∧ ∀ number, all.getLsbD number = true ↔ number < count := by
  refine ⟨_, if_pos ⟨few, by omega⟩, fun number => ?_⟩
  rw [BitVec.getLsbD_ushiftRight, BitVec.getLsbD_allOnes, decide_eq_true_eq]
  omega

end Bits

section Narrowing

/-- Every rule among numbered ones that refuses the value leaves the set, and no other. -/
theorem exists_foldlM_exclude (value : Nat) (entries : List (Rule × Nat))
    (few : ∀ entry ∈ entries, entry.2 < 64) (slot : RuleSet) :
    ∃ narrowed, entries.foldlM (exclude? value) slot = some narrowed ∧
      ∀ number, narrowed.getLsbD number = true ↔ slot.getLsbD number = true ∧
        ∀ entry ∈ entries, entry.2 = number → entry.1.accepts value = true := by
  induction entries generalizing slot with
  | nil => exact ⟨slot, rfl, by simp⟩
  | cons entry rest ih =>
    rw [List.forall_mem_cons] at few
    by_cases accepts : entry.1.accepts value = true
    · obtain ⟨narrowed, made, bits⟩ := ih few.2 slot
      refine ⟨narrowed, ?_, fun number => ?_⟩
      · rw [List.foldlM_cons, exclude?, if_pos accepts]
        exact made
      · rw [bits number, List.forall_mem_cons]
        simp [accepts]
    · obtain ⟨single, shifted⟩ := exists_single? few.1
      have only := only_of_single? shifted
      obtain ⟨narrowed, made, bits⟩ := ih few.2 (slot &&& ~~~single)
      refine ⟨narrowed, ?_, fun number => ?_⟩
      · rw [List.foldlM_cons, exclude?, if_neg accepts, shifted]
        exact made
      · rw [bits number, only.getLsbD_clear, List.forall_mem_cons, and_assoc, ne_comm]
        simp [accepts]

theorem exists_narrow? (few : rules.length ≤ 64) (value : Nat) (slot : RuleSet) :
    ∃ narrowed, narrow? rules value slot = some narrowed ∧
      ∀ number, narrowed.getLsbD number = true ↔ slot.getLsbD number = true ∧
        ∀ rule, rules[number]? = some rule → rule.accepts value = true := by
  have inside (entry : Rule × Nat) (member : entry ∈ rules.zipIdx) : entry.2 < 64 := by
    have there := (List.getElem?_eq_some_iff.mp (List.mem_zipIdx_iff_getElem?.mp member)).1
    omega
  obtain ⟨narrowed, made, bits⟩ := exists_foldlM_exclude value rules.zipIdx inside slot
  refine ⟨narrowed, made, fun number => ?_⟩
  rw [bits number]
  simp only [Prod.forall, List.mem_zipIdx_iff_getElem?]
  refine and_congr_right fun _ => ⟨fun all rule found => all rule number found rfl, ?_⟩
  rintro all rule _ found rfl
  exact all rule found

theorem offers_cons_zero : Offers (slot :: slots) 0 number ↔ slot.getLsbD number = true := by
  simp [Offers]

theorem offers_cons_succ : Offers (slot :: slots) (place + 1) number ↔ Offers slots place number := by
  simp [Offers]

/-- A ticket takes from each place the rules that refuse its value there. -/
theorem exists_narrowAll? (few : rules.length ≤ 64) (slots : List RuleSet) (ticket : List Nat) :
    ∃ narrowed, narrowAll? rules slots ticket = some narrowed ∧ narrowed.length = slots.length ∧
      ∀ place number, Offers narrowed place number ↔ Offers slots place number ∧
        ∀ value, ticket[place]? = some value →
          ∀ rule, rules[number]? = some rule → rule.accepts value = true := by
  induction slots generalizing ticket with
  | nil => exact ⟨[], by simp [narrowAll?], rfl, by simp [Offers]⟩
  | cons slot slots ih =>
    cases ticket with
    | nil => exact ⟨slot :: slots, by simp [narrowAll?], rfl, by simp⟩
    | cons value values =>
      obtain ⟨first, made, bits⟩ := exists_narrow? few value slot
      obtain ⟨rest, madeRest, length, offers⟩ := ih values
      refine ⟨first :: rest, by simp [narrowAll?, made, madeRest], by simp [length], ?_⟩
      intro place number
      cases place with
      | zero => simp [offers_cons_zero, bits]
      | succ place => simp [offers_cons_succ, offers]

theorem exists_foldlM_narrowAll (few : rules.length ≤ 64) (tickets : List (List Nat))
    (slots : List RuleSet) :
    ∃ narrowed, tickets.foldlM (narrowAll? rules) slots = some narrowed ∧
      narrowed.length = slots.length ∧
      ∀ place number, Offers narrowed place number ↔ Offers slots place number ∧
        ∀ ticket ∈ tickets, ∀ value, ticket[place]? = some value →
          ∀ rule, rules[number]? = some rule → rule.accepts value = true := by
  induction tickets generalizing slots with
  | nil => exact ⟨slots, rfl, rfl, by simp⟩
  | cons ticket rest ih =>
    obtain ⟨first, made, length, offers⟩ := exists_narrowAll? few slots ticket
    obtain ⟨narrowed, madeRest, lengthRest, offersRest⟩ := ih first
    refine ⟨narrowed, ?_, lengthRest.trans length, fun place number => ?_⟩
    · rw [List.foldlM_cons, made]
      exact madeRest
    · rw [offersRest, offers, List.forall_mem_cons, and_assoc]

/-- The candidates of a place are the rules that fit it, and they are found without a fault. -/
theorem Notes.exists_candidates? (notes : Notes) (present : 1 ≤ notes.rules.length)
    (few : notes.rules.length ≤ 64) :
    ∃ slots, notes.candidates? = some slots ∧ slots.length = notes.mine.length ∧
      ∀ place number, Offers slots place number ↔
        place < notes.mine.length ∧ notes.Fits number place := by
  obtain ⟨all, made, bits⟩ := exists_all? present few
  obtain ⟨slots, narrowed, length, offers⟩ :=
    exists_foldlM_narrowAll few notes.valid (List.replicate notes.mine.length all)
  refine ⟨slots, ?_, by simpa using length, fun place number => ?_⟩
  · rw [Notes.candidates?, made]
    exact narrowed
  · have initially : Offers (List.replicate notes.mine.length all) place number ↔
        place < notes.mine.length ∧ number < notes.rules.length := by
      simp [Offers, List.getElem?_replicate, bits]
    rw [offers, initially, and_assoc]
    refine and_congr_right fun _ => ?_
    constructor
    · rintro ⟨inside, accepted⟩
      exact ⟨notes.rules[number], List.getElem?_eq_getElem inside, fun ticket member value there =>
        accepted ticket member value there _ (List.getElem?_eq_getElem inside)⟩
    · rintro ⟨rule, found, accepted⟩
      refine ⟨(List.getElem?_eq_some_iff.mp found).1, fun ticket member value there other same => ?_⟩
      obtain rfl := Option.some.inj (found.symm.trans same)
      exact accepted ticket member value there

end Narrowing

end PuzzleCalendar.Tickets
