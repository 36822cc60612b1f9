import Mathlib.Data.Finset.Dedup
import Mathlib.Data.Finset.Range
import Mathlib.Data.List.GetD
import PuzzleCalendar.Proofs.Assignment
import PuzzleCalendar.Proofs.Tickets.Candidates

/-! # The order of the fields

The fields of a ticket are put in order exactly when there is one way to do so: a rule for each place,
all different, that accepts the value there of every valid ticket. Claiming a single rule keeps the ways
to give the places rules. When no single rule is left to claim, the places with several rules have none
of the claimed ones, and if there is exactly one way, there are no such places.
-/

namespace PuzzleCalendar.Tickets

open Text

/-- A rule number for each place, all different, and each of a rule that fits the place. -/
structure Notes.Orders (notes : Notes) (order : List Nat) : Prop where
  length : order.length = notes.mine.length
  fits : ∀ place number, order[place]? = some number → notes.Fits number place
  distinct : order.Nodup

/-- The rules can be given to the places in this way and no other. -/
def Notes.OrdersOnly (notes : Notes) (order : List Nat) : Prop :=
  notes.Orders order ∧ ∀ other, notes.Orders other → other = order

/-- The names of the rules with these numbers. -/
def Named (rules : List Rule) (order : List Nat) (names : List Text) : Prop :=
  order.map (fun number => rules[number]?.map Rule.name) = names.map some

/-- A rule that is resolved is in no set with other rules. -/
def Apart (resolved : RuleSet) (slots : List RuleSet) : Prop :=
  ∀ slot ∈ slots, ∀ number, resolved.getLsbD number = true → slot.getLsbD number = true →
    Only slot number

variable {notes : Notes} {rules : List Rule} {slot single resolved : RuleSet} {slots : List RuleSet}
  {number place : Nat} {choice : Nat → Nat} {order : List Nat} {names : List Text}

section Claiming

theorem exists_only_of_nextSingle? (found : nextSingle? resolved slots = some single) :
    single ∈ slots ∧ ∃ number, Only single number := by
  obtain ⟨member, one, _⟩ := nextSingle?_spec found
  exact ⟨member, cpop_eq_one_iff.mp one⟩

/-- When no single rule is left to claim, every single rule is resolved. -/
theorem resolved_of_nextSingle?_eq_none (none : nextSingle? resolved slots = none)
    (member : slot ∈ slots) (only : Only slot number) : resolved.getLsbD number = true := by
  by_contra unresolved
  have skipped := List.find?_eq_none.mp none slot member
  have clear : resolved.getLsbD number = false := by simpa using unresolved
  have fresh : slot &&& resolved = 0 := by
    refine BitVec.eq_of_getLsbD_eq fun other _ => ?_
    by_cases same : other = number
    · simp [same, clear]
    · simp [mt (only other).mp same]
  exact skipped (by simpa using ⟨cpop_eq_one_iff.mpr ⟨number, only⟩, fresh⟩)

/-- A claimed rule stays where it is single, and every other rule stays everywhere. -/
theorem getLsbD_claimed (only : Only single number) {other : Nat} :
    (if slot = single then slot else slot &&& ~~~single).getLsbD other = true ↔
      slot.getLsbD other = true ∧ (other = number → slot = single) := by
  split
  · rename_i same
    simp [same]
  · rename_i different
    rw [only.getLsbD_clear]
    simp [different]

theorem offers_claim_iff (only : Only single number) {other : Nat} :
    Offers (claim single slots) place other ↔ ∃ slot, slots[place]? = some slot ∧
      slot.getLsbD other = true ∧ (other = number → slot = single) := by
  simp only [Offers, claim, List.getElem?_map, Option.map_eq_some_iff]
  constructor
  · rintro ⟨_, ⟨slot, found, rfl⟩, holds⟩
    exact ⟨slot, found, (getLsbD_claimed only).mp holds⟩
  · rintro ⟨slot, found, holds⟩
    exact ⟨_, ⟨slot, found, rfl⟩, (getLsbD_claimed only).mpr holds⟩

/-- Claiming a single rule keeps the assignments. -/
theorem assigns_claim_iff (member : single ∈ slots) (only : Only single number) :
    Assigns (Finset.range slots.length) (Offers (claim single slots)) choice ↔
      Assigns (Finset.range slots.length) (Offers slots) choice := by
  constructor
  · rintro ⟨fit, distinct⟩
    refine ⟨fun place inside => ?_, distinct⟩
    obtain ⟨slot, found, holds, _⟩ := (offers_claim_iff only).mp (fit place inside)
    exact ⟨slot, found, holds⟩
  · rintro ⟨fit, distinct⟩
    refine ⟨fun place inside => (offers_claim_iff only).mpr ?_, distinct⟩
    obtain ⟨slot, found, holds⟩ := fit place inside
    refine ⟨slot, found, holds, fun taken => ?_⟩
    -- The place of the single set takes the rule too, so that it is this place.
    obtain ⟨home, there⟩ := List.mem_iff_getElem?.mp member
    have homeInside : home ∈ Finset.range slots.length :=
      Finset.mem_range.mpr (List.getElem?_eq_some_iff.mp there).1
    obtain ⟨same, foundHome, holdsHome⟩ := fit home homeInside
    obtain rfl := Option.some.inj (there.symm.trans foundHome)
    have together : place = home :=
      distinct inside homeInside (taken.trans ((only _).mp holdsHome).symm)
    exact Option.some.inj (found.symm.trans (together ▸ there))

/-- Claiming a single rule and marking it as resolved keeps the resolved rules apart. -/
theorem Apart.claim (apart : Apart resolved slots) (only : Only single number) :
    Apart (resolved ||| single) (claim single slots) := by
  intro narrowed member other marked holds
  obtain ⟨slot, inside, rfl⟩ := List.mem_map.mp member
  obtain ⟨before, home⟩ := (getLsbD_claimed only).mp holds
  rw [BitVec.getLsbD_or, Bool.or_eq_true, only other] at marked
  have alone : Only slot other := by
    rcases marked with known | same
    · exact apart slot inside other known before
    · rw [home same, same]
      exact only
  intro another
  rw [getLsbD_claimed only]
  constructor
  · exact fun bit => (alone another).mp bit.1
  · rintro rfl
    exact ⟨before, home⟩

@[simp] theorem length_claim (single : RuleSet) (slots : List RuleSet) :
    (claim single slots).length = slots.length :=
  List.length_map _

/-- The sets after some claims: no single rule is left to claim, and the sets have lost rules, but no
assignments. -/
structure Settled (slots settled : List RuleSet) (resolved : RuleSet) : Prop where
  apart : Apart resolved settled
  none : nextSingle? resolved settled = none
  length : settled.length = slots.length
  offers : ∀ place number, Offers settled place number → Offers slots place number
  same : ∀ choice, Assigns (Finset.range slots.length) (Offers settled) choice ↔
    Assigns (Finset.range slots.length) (Offers slots) choice

/-- Claims go on until the sets are settled. -/
theorem exists_settled (apart : Apart resolved slots) :
    ∃ final, Settled slots (settle resolved slots) final := by
  fun_induction settle resolved slots with
  | case1 resolved slots none => exact ⟨resolved, apart, none, rfl, fun _ _ => id, fun _ => Iff.rfl⟩
  | case2 resolved slots single found _ ih =>
    obtain ⟨member, number, only⟩ := exists_only_of_nextSingle? found
    obtain ⟨final, apartFinal, none, length, offers, same⟩ := ih (apart.claim only)
    rw [length_claim] at length same
    refine ⟨final, apartFinal, none, length, fun place other offered => ?_, fun choice => ?_⟩
    · obtain ⟨slot, there, holds, _⟩ := (offers_claim_iff only).mp (offers place other offered)
      exact ⟨slot, there, holds⟩
    · rw [same choice, assigns_claim_iff member only]

end Claiming

section Uniqueness

/-- If there is exactly one assignment and no single rule is left to claim, every place has a single
rule. -/
theorem only_of_assignsOnly (apart : Apart resolved slots)
    (none : nextSingle? resolved slots = none)
    (unique : AssignsOnly (Finset.range slots.length) (Offers slots) choice)
    (found : slots[place]? = some slot) : Only slot (choice place) := by
  classical
  by_contra several
  -- The places with several rules, which fit none of the other places.
  let rest := (Finset.range slots.length).filter fun place =>
    ∃ slot, slots[place]? = some slot ∧ ¬ Only slot (choice place)
  have inside : place ∈ Finset.range slots.length :=
    Finset.mem_range.mpr (List.getElem?_eq_some_iff.mp found).1
  have nonempty : rest.Nonempty := ⟨place, Finset.mem_filter.mpr ⟨inside, slot, found, several⟩⟩
  have closed : ∀ place ∈ rest, ∀ number, Offers slots place number →
      ∀ taken ∈ Finset.range slots.length, choice taken = number → taken ∈ rest := by
    rintro place member number ⟨set, here, holds⟩ taken among rfl
    by_contra settled
    obtain ⟨other, there, bit⟩ := unique.assigns.fits taken among
    have single : Only other (choice taken) := by
      by_contra several
      exact settled (Finset.mem_filter.mpr ⟨among, other, there, several⟩)
    have marked := resolved_of_nextSingle?_eq_none none (List.mem_of_getElem? there) single
    have alone := apart set (List.mem_of_getElem? here) _ marked holds
    obtain ⟨inside, same, found, several⟩ := Finset.mem_filter.mp member
    obtain rfl := Option.some.inj (here.symm.trans found)
    obtain ⟨_, again, own⟩ := unique.assigns.fits place inside
    obtain rfl := Option.some.inj (here.symm.trans again)
    exact several ((alone _).mp own ▸ alone)
  obtain ⟨forced, member, alone⟩ :=
    unique.exists_forced (Finset.filter_subset _ _) nonempty closed
  obtain ⟨among, set, here, several⟩ := Finset.mem_filter.mp member
  refine several fun other => ⟨fun holds => alone other ⟨set, here, holds⟩, ?_⟩
  rintro rfl
  obtain ⟨same, there, holds⟩ := unique.assigns.fits forced among
  obtain rfl := Option.some.inj (here.symm.trans there)
  exact holds

theorem only_getD (alone : List.Forall₂ Only slots order) (found : slots[place]? = some slot) :
    Only slot (order.getD place 0) := by
  obtain ⟨there, rfl⟩ := List.getElem?_eq_some_iff.mp found
  have here : place < order.length := alone.length_eq ▸ there
  rw [List.getD_eq_getElem _ _ here]
  exact alone.get there here

/-- Single rules at all places, all different, are the only assignment. -/
theorem assignsOnly_of_only (alone : List.Forall₂ Only slots order) (distinct : order.Nodup) :
    AssignsOnly (Finset.range slots.length) (Offers slots) (fun place => order.getD place 0) := by
  have single (place : Nat) (inside : place ∈ Finset.range slots.length) :
      ∃ slot, slots[place]? = some slot ∧ Only slot (order.getD place 0) := by
    have found := List.getElem?_eq_getElem (Finset.mem_range.mp inside)
    exact ⟨_, found, only_getD alone found⟩
  refine ⟨⟨fun place inside => ?_, fun one inOne two inTwo same => ?_⟩, fun other fitting place inside => ?_⟩
  · obtain ⟨slot, found, only⟩ := single place inside
    exact ⟨slot, found, (only _).mpr rfl⟩
  · have first : one < order.length := alone.length_eq ▸ Finset.mem_range.mp inOne
    have second : two < order.length := alone.length_eq ▸ Finset.mem_range.mp inTwo
    simp only [List.getD_eq_getElem _ _ first, List.getD_eq_getElem _ _ second] at same
    exact distinct.getElem_inj_iff.mp same
  · obtain ⟨slot, found, only⟩ := single place inside
    obtain ⟨_, there, holds⟩ := fitting.fits place inside
    obtain rfl := Option.some.inj (found.symm.trans there)
    exact (only _).mp holds

/-- What single rules at all places say is what any choice among them says. -/
theorem eq_map_of_only (alone : List.Forall₂ Only slots order)
    (choose : ∀ place slot, slots[place]? = some slot → Only slot (choice place)) :
    order = (List.range slots.length).map choice := by
  refine List.ext_getElem (by simp [alone.length_eq]) fun place here _ => ?_
  have there : place < slots.length := alone.length_eq ▸ here
  rw [List.getElem_map, List.getElem_range]
  exact (alone.get there here).unique (choose place _ (List.getElem?_eq_getElem there))

end Uniqueness

section Names

/-- Where all numbers are those of rules, the names are read off single rules at all places, or else
there is a report of a place that has none or several. -/
theorem fieldNames_spec (known : ∀ slot ∈ slots, ∀ number, slot.getLsbD number = true →
    number < rules.length) (place : Nat) :
    (∃ order names, fieldNames rules place slots = .ok names ∧ List.Forall₂ Only slots order ∧
      (∀ number ∈ order, number < rules.length) ∧ Named rules order names) ∨
    (∃ error, fieldNames rules place slots = Outcome.report error) ∧
      ∃ slot ∈ slots, ∀ number, ¬ Only slot number := by
  induction slots generalizing place with
  | nil => exact .inl ⟨[], [], rfl, .nil, by simp, rfl⟩
  | cons slot slots ih =>
    rw [List.forall_mem_cons] at known
    unfold fieldNames
    split
    · rename_i one
      obtain ⟨number, only⟩ := toNat_cpop_eq_one_iff.mp one
      have inside := known.1 number ((only number).mpr rfl)
      have there := List.getElem?_eq_getElem inside
      rw [only.toNat_ctz, there]
      rcases ih known.2 (place + 1) with
        ⟨order, names, found, alone, bounds, same⟩ | ⟨⟨error, failed⟩, several⟩
      · refine .inl ⟨number :: order, rules[number].name :: names, ?_, .cons only alone,
          List.forall_mem_cons.mpr ⟨inside, bounds⟩, ?_⟩
        · rw [found]
          rfl
        · rw [Named, List.map_cons, List.map_cons, there, Option.map_some, same]
      · obtain ⟨other, member, several⟩ := several
        refine .inr ⟨⟨error, ?_⟩, other, List.mem_cons_of_mem _ member, several⟩
        rw [failed]
        rfl
    · rename_i nothing
      refine .inr ⟨⟨_, rfl⟩, slot, List.mem_cons_self, fun number only => ?_⟩
      have one := toNat_cpop_eq_one_iff.mpr ⟨number, only⟩
      omega
    · rename_i several _
      exact .inr ⟨⟨_, rfl⟩, slot, List.mem_cons_self, fun number only =>
        several (toNat_cpop_eq_one_iff.mpr ⟨number, only⟩)⟩

/-- With names that are all different, the same holds of the names of numbers that are all different. -/
theorem nodup_iff_of_named (distinct : (rules.map Rule.name).Nodup)
    (known : ∀ number ∈ order, number < rules.length) (named : Named rules order names) :
    names.Nodup ↔ order.Nodup := by
  rw [← List.nodup_map_iff (Option.some_injective Text), ← named]
  refine ⟨List.Nodup.of_map _, fun once => once.map_on fun one memberOne two memberTwo same => ?_⟩
  rw [← List.getElem?_map, ← List.getElem?_map] at same
  exact (List.getElem?_inj (by simpa using known one memberOne) distinct).mp same

end Names

section Orders

/-- The orders are the assignments of candidates to places. -/
theorem orders_iff (offers : ∀ place number, Offers slots place number ↔
    place < notes.mine.length ∧ notes.Fits number place) :
    notes.Orders order ↔ ∃ choice, Assigns (Finset.range notes.mine.length) (Offers slots) choice ∧
      order = (List.range notes.mine.length).map choice := by
  constructor
  · intro orders
    have same : order = (List.range notes.mine.length).map fun place => order.getD place 0 := by
      refine List.ext_getElem (by simp [orders.length]) fun place here _ => ?_
      simp only [List.getElem_map, List.getElem_range, List.getD_eq_getElem _ _ here]
    refine ⟨fun place => order.getD place 0, ⟨fun place inside => ?_, fun one inOne two inTwo equal => ?_⟩,
      same⟩
    · have there := Finset.mem_range.mp inside
      have here := orders.length.symm ▸ there
      refine (offers _ _).mpr ⟨there, orders.fits place _ ?_⟩
      rw [List.getD_eq_getElem _ _ here, List.getElem?_eq_getElem here]
    · refine List.inj_on_of_nodup_map (same ▸ orders.distinct) ?_ ?_ equal
      · simpa using inOne
      · simpa using inTwo
  · rintro ⟨choice, ⟨fit, distinct⟩, rfl⟩
    refine ⟨by simp, fun place number found => ?_, ?_⟩
    · rw [List.getElem?_map, Option.map_eq_some_iff] at found
      obtain ⟨same, there, rfl⟩ := found
      have inside : place < notes.mine.length := by
        simpa using (List.getElem?_eq_some_iff.mp there).1
      rw [List.getElem?_range inside, Option.some_inj] at there
      exact there ▸ ((offers _ _).mp (fit place (Finset.mem_range.mpr inside))).2
    · exact List.nodup_range.map_on fun one inOne two inTwo equal =>
        distinct (by simpa using inOne) (by simpa using inTwo) equal

theorem map_range_eq_iff {count : Nat} {other : Nat → Nat} :
    (List.range count).map choice = (List.range count).map other ↔
      ∀ place ∈ Finset.range count, choice place = other place := by
  simp [List.map_inj_left]

theorem ordersOnly_iff (offers : ∀ place number, Offers slots place number ↔
    place < notes.mine.length ∧ notes.Fits number place) :
    notes.OrdersOnly order ↔
      ∃ choice, AssignsOnly (Finset.range notes.mine.length) (Offers slots) choice ∧
        order = (List.range notes.mine.length).map choice :=
  only_iff_exists_assignsOnly (fun _ => orders_iff offers) fun _ _ => map_range_eq_iff

end Orders

section Reading

/-- Notes that can be read have from 1 to 64 rules. -/
theorem length_rules_of_parse {text : Text} (parsed : parse text = .ok notes) :
    1 ≤ notes.rules.length ∧ notes.rules.length ≤ 64 := by
  rw [parse, Outcome.ofExcept_eq_ok_iff] at parsed
  split at parsed
  · contradiction
  · obtain ⟨rules, _, parsed⟩ := bind_eq_ok_iff.mp parsed
    split at parsed
    · contradiction
    · rename_i bounds
      have made : notes.rules = rules := by
        obtain ⟨own, _, parsed⟩ := bind_eq_ok_iff.mp parsed
        cases own with
        | nil => contradiction
        | cons line rest =>
          simp only [bind_eq_ok_iff] at parsed
          obtain ⟨mine, _, others, _, nearby, _, made⟩ := parsed
          exact Except.ok.inj made ▸ rfl
      simp only [Bool.or_eq_true, List.isEmpty_iff, decide_eq_true_eq, not_or, Nat.not_lt] at bounds
      rw [made]
      exact ⟨List.length_pos_iff.mpr bounds.1, bounds.2⟩

end Reading

section Outcome

/-- The names tell the rules of the only order. -/
theorem Notes.OrdersOnly.names_eq {other : List Nat} {others : List Text}
    (unique : notes.OrdersOnly order) (named : Named notes.rules order names)
    (another : notes.OrdersOnly other) (also : Named notes.rules other others) : names = others := by
  obtain rfl := unique.2 other another.1
  exact List.map_injective_iff.mpr (Option.some_injective Text) (named.symm.trans also)

/-- The only order is the only assignment of what the settled sets offer. -/
theorem Settled.ordersOnly_iff {settled : List RuleSet} (after : Settled slots settled resolved)
    (length : slots.length = notes.mine.length)
    (offers : ∀ place number, Offers slots place number ↔
      place < notes.mine.length ∧ notes.Fits number place) :
    notes.OrdersOnly order ↔
      ∃ choice, AssignsOnly (Finset.range settled.length) (Offers settled) choice ∧
        order = (List.range settled.length).map choice := by
  rw [Tickets.ordersOnly_iff offers, after.length, ← length]
  have same (choice : Nat → Nat) :
      AssignsOnly (Finset.range slots.length) (Offers settled) choice ↔
        AssignsOnly (Finset.range slots.length) (Offers slots) choice :=
    assignsOnly_congr_fits after.same
  simp only [same]

/-- The only order takes the rule of each place from a settled set with a single rule. -/
theorem Settled.only_of_ordersOnly {settled : List RuleSet} (after : Settled slots settled resolved)
    (length : slots.length = notes.mine.length)
    (offers : ∀ place number, Offers slots place number ↔
      place < notes.mine.length ∧ notes.Fits number place) (unique : notes.OrdersOnly order) :
    ∃ choice : Nat → Nat, order = (List.range settled.length).map choice ∧
      ∀ place slot, settled[place]? = some slot → Only slot (choice place) := by
  obtain ⟨choice, alone, same⟩ := (after.ordersOnly_iff length offers).mp unique
  exact ⟨choice, same, fun place slot found => only_of_assignsOnly after.apart after.none alone found⟩

/-- From 1 to 64 rules with different names are given to the places in the only order, or else there is
no only order and the report says so. -/
theorem fieldOrder_spec (present : 1 ≤ notes.rules.length) (few : notes.rules.length ≤ 64)
    (distinct : (notes.rules.map Rule.name).Nodup) :
    (∃ order names, notes.fieldOrder = .ok names ∧ notes.OrdersOnly order ∧
      Named notes.rules order names) ∨
    (∃ error, notes.fieldOrder = Outcome.report error) ∧ ¬ ∃ order, notes.OrdersOnly order := by
  obtain ⟨slots, made, length, offers⟩ := notes.exists_candidates? present few
  obtain ⟨final, after⟩ :=
    exists_settled (show Apart 0 slots from fun _ _ _ marked => by simp at marked)
  have outcome : notes.fieldOrder = (do
      let names ← fieldNames notes.rules 0 (settle 0 slots)
      if names.Nodup then pure names else Outcome.report .claimedTwice) := by
    rw [Notes.fieldOrder, made]
    rfl
  have known (slot : RuleSet) (member : slot ∈ settle 0 slots) (number : Nat)
      (holds : slot.getLsbD number = true) : number < notes.rules.length := by
    obtain ⟨place, found⟩ := List.mem_iff_getElem?.mp member
    obtain ⟨rule, there, _⟩ := ((offers _ _).mp (after.offers place number ⟨slot, found, holds⟩)).2
    exact (List.getElem?_eq_some_iff.mp there).1
  rcases fieldNames_spec known 0 with
    ⟨order, names, found, alone, bounds, named⟩ | ⟨⟨error, failed⟩, slot, member, several⟩
  · have once := nodup_iff_of_named distinct bounds named
    by_cases different : order.Nodup
    · refine .inl ⟨order, names, ?_, ?_, named⟩
      · rw [outcome, found]
        exact if_pos (once.mpr different)
      · exact (after.ordersOnly_iff length offers).mpr
          ⟨_, assignsOnly_of_only alone different, eq_map_of_only alone fun _ _ => only_getD alone⟩
    · refine .inr ⟨⟨.claimedTwice, ?_⟩, ?_⟩
      · rw [outcome, found]
        exact if_neg (mt once.mp different)
      · rintro ⟨other, unique⟩
        obtain ⟨choice, same, only⟩ := after.only_of_ordersOnly length offers unique
        rw [← eq_map_of_only alone only] at same
        exact different (same ▸ unique.1.distinct)
  · refine .inr ⟨⟨error, by rw [outcome, failed]; rfl⟩, ?_⟩
    rintro ⟨order, unique⟩
    obtain ⟨choice, _, only⟩ := after.only_of_ordersOnly length offers unique
    obtain ⟨place, found⟩ := List.mem_iff_getElem?.mp member
    exact several _ (only place slot found)

end Outcome

/-- Three fields, of which the second fits two places and the third all of them. -/
def train : Text :=
  ("class: 0-1 or 4-19\nrow: 0-5 or 8-19\nseat: 0-13 or 16-19\n\nyour ticket:\n11,12,13\n\n" ++
    "nearby tickets:\n3,9,18\n15,1,5\n5,14,9\n").toList

/-- The notes that describe the train. -/
def trainNotes : Notes where
  rules := [⟨"class".toList, ⟨0, 1⟩, ⟨4, 19⟩⟩, ⟨"row".toList, ⟨0, 5⟩, ⟨8, 19⟩⟩,
    ⟨"seat".toList, ⟨0, 13⟩, ⟨16, 19⟩⟩]
  mine := [11, 12, 13]
  nearby := [[3, 9, 18], [15, 1, 5], [5, 14, 9]]

end PuzzleCalendar.Tickets
