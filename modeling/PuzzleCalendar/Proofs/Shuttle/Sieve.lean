import Mathlib.Algebra.BigOperators.Group.List.Basic
import Mathlib.Algebra.Order.Group.Nat
import Mathlib.Data.Nat.ModEq
import PuzzleCalendar.Puzzles.Shuttle

/-! # The sieve for aligned departures

The buses are brought in line one after the other, in steps of the product of the numbers so far. Once
numbers share factors, that product is more than the time after which the buses so far are in line again,
and the steps pass over times at which they are. The time that is found is then the one whose remainder by
each product lies within the first common multiple of the product before and the number of the bus. It is
the least aligned time exactly when it is less than the common multiple of all numbers.
-/

namespace PuzzleCalendar.Shuttle

/-- The bus departs its offset after the time. -/
def Bus.Departs (bus : Bus) (time : Nat) : Prop :=
  (time + bus.offset) % bus.id = 0

/-- Every bus departs its offset after the time. -/
def Aligned (buses : List Bus) (time : Nat) : Prop :=
  ∀ bus ∈ buses, bus.Departs time

instance (bus : Bus) (time : Nat) : Decidable (bus.Departs time) :=
  inferInstanceAs (Decidable (_ = _))

instance (buses : List Bus) (time : Nat) : Decidable (Aligned buses time) :=
  inferInstanceAs (Decidable (∀ bus ∈ buses, _))

/-- The product of the numbers of the buses. -/
def product (buses : List Bus) : Nat :=
  (buses.map Bus.id).prod

/-- The least common multiple of the numbers of the buses. -/
def period : List Bus → Nat
  | [] => 1
  | bus :: rest => Nat.lcm bus.id (period rest)

/-- At each bus, the remainder of the time by the next step lies within the first common multiple of the
step and the number. -/
def Sieved (step : Nat) (buses : List Bus) (time : Nat) : Prop :=
  ∀ front bus rest, buses = front ++ bus :: rest →
    time % (step * product front * bus.id) < Nat.lcm (step * product front) bus.id

/-- At each bus, the next step is a word of 64 bits, and so is the departure that is found. -/
def InWords (step : Nat) (buses : List Bus) (time : Nat) : Prop :=
  ∀ front bus rest, buses = front ++ bus :: rest →
    step * product front * bus.id < 2 ^ 64 ∧
      time % (step * product front * bus.id) + bus.offset < 2 ^ 64

/-- No time in line with the given one has the bus depart, and each time that is tried is a word. -/
def Bus.Misses (bus : Bus) (step time : Nat) : Prop :=
  (∀ later, later % step = time → ¬ bus.Departs later) ∧
    time + (bus.id - 1) * step + bus.offset < 2 ^ 64

/-- The bus departs at a word in line with the given time, and the next step is no word. -/
def Bus.Outgrows (bus : Bus) (step time : Nat) : Prop :=
  (∃ found, found % step = time ∧ bus.Departs found ∧ found < Nat.lcm step bus.id ∧
    found + bus.offset < 2 ^ 64) ∧ 2 ^ 64 ≤ step * bus.id

variable {bus : Bus} {buses rest : List Bus} {step time found later : Nat}

section Multiples

theorem Bus.departs_iff_dvd : bus.Departs time ↔ bus.id ∣ time + bus.offset :=
  (Nat.dvd_iff_mod_eq_zero ..).symm

/-- A bus that departs at a time departs at another one exactly when a multiple of its number lies
between. -/
theorem Bus.Departs.iff_of_modEq (same : later ≡ time [MOD bus.id]) :
    bus.Departs later ↔ bus.Departs time := by
  unfold Bus.Departs
  rw [same.add_right bus.offset]

theorem Bus.Departs.dvd_sub {early : Nat} (departs : bus.Departs later) (other : bus.Departs early) :
    bus.id ∣ later - early := by
  have between := Nat.dvd_sub (departs_iff_dvd.mp departs) (departs_iff_dvd.mp other)
  rwa [Nat.add_sub_add_right] at between

/-- The bus departs at the time after some of the tries and after none of the tries before. -/
def First (bus : Bus) (step tries time found : Nat) : Prop :=
  ∃ count < tries, found = time + count * step ∧ bus.Departs found ∧
    ∀ before < count, ¬ bus.Departs (time + before * step)

/-- Less than a common multiple after a departure in steps there is no other one. -/
theorem eq_of_departs (departs : bus.Departs later) (other : bus.Departs time)
    (steps : later % step = time % step) (early : time ≤ later)
    (near : later < time + Nat.lcm step bus.id) : later = time := by
  have common : Nat.lcm step bus.id ∣ later - time :=
    Nat.lcm_dvd ((Nat.modEq_iff_dvd' early).mp steps.symm) (departs.dvd_sub other)
  have none := Nat.eq_zero_of_dvd_of_lt common (by omega)
  omega

/-- What departs a common multiple or more after the start departs once before as well. -/
theorem exists_departs_of_le {count : Nat} (positive : 0 < bus.id) (inside : time < step)
    (departs : bus.Departs (time + count * step)) (beyond : Nat.lcm step bus.id ≤ time + count * step) :
    ∃ before < count, bus.Departs (time + before * step) := by
  obtain ⟨steps, multiple⟩ := Nat.dvd_lcm_left step bus.id
  have common := Nat.lcm_pos (by omega : 0 < step) positive
  have enough : steps ≤ count := by
    by_contra less
    have bound := Nat.mul_le_mul_right step (Nat.lt_of_not_le less)
    rw [Nat.succ_mul] at bound
    rw [multiple, Nat.mul_comm step] at beyond
    omega
  have moves : steps ≠ 0 := by
    rintro rfl
    omega
  refine ⟨count - steps, by omega, ?_⟩
  have earlier : time + count * step = time + (count - steps) * step + Nat.lcm step bus.id := by
    rw [multiple, Nat.mul_comm step, Nat.add_assoc, ← Nat.add_mul, Nat.sub_add_cancel enough]
  rw [earlier] at departs
  refine (Bus.Departs.iff_of_modEq ?_).mp departs
  exact (Nat.modEq_zero_iff_dvd.mpr (Nat.dvd_lcm_right step bus.id)).add_left _

/-- The first departure in steps is the one within the first common multiple. -/
theorem first_iff (positive : 0 < bus.id) (inside : time < step) :
    First bus step bus.id time found ↔
      found % step = time ∧ bus.Departs found ∧ found < Nat.lcm step bus.id := by
  constructor
  · rintro ⟨count, _, rfl, departs, first⟩
    refine ⟨by rw [Nat.add_mul_mod_self_right, Nat.mod_eq_of_lt inside], departs, ?_⟩
    by_contra beyond
    obtain ⟨before, less, again⟩ := exists_departs_of_le positive inside departs (Nat.not_lt.mp beyond)
    exact first before less again
  · rintro ⟨rfl, departs, bound⟩
    have split : found = found % step + found / step * step := (Nat.mod_add_div' found step).symm
    refine ⟨found / step, ?_, split, departs, fun before less again => ?_⟩
    · rw [Nat.div_lt_iff_lt_mul (by omega), Nat.mul_comm]
      exact bound.trans_le (Nat.le_of_dvd (Nat.mul_pos (by omega) positive)
        (Nat.lcm_dvd_mul step bus.id))
    · have earlier := Nat.mul_lt_mul_of_pos_right less (by omega : 0 < step)
      have steps : found % step = (found % step + before * step) % step := by
        rw [Nat.add_mul_mod_self_right, Nat.mod_mod]
      have near : found < found % step + before * step + Nat.lcm step bus.id := by omega
      have same := eq_of_departs departs again steps (by omega) near
      omega

/-- As many steps as the number of the bus says come to a departure, if there is one in any number of
steps. -/
theorem never_iff (positive : 0 < bus.id) (inside : time < step) :
    (∀ count < bus.id, ¬ bus.Departs (time + count * step)) ↔
      ∀ later, later % step = time → ¬ bus.Departs later := by
  constructor
  · rintro none later rfl departs
    have split : later = later % step + later / step * step := (Nat.mod_add_div' later step).symm
    refine none (later / step % bus.id) (Nat.mod_lt _ positive) ?_
    refine (Bus.Departs.iff_of_modEq ?_).mp (split ▸ departs)
    exact ((Nat.mod_modEq (later / step) bus.id).symm.mul_right step).add_left _
  · intro none count _ departs
    exact none _ (by rw [Nat.add_mul_mod_self_right, Nat.mod_eq_of_lt inside]) departs

end Multiples

section Seeking

theorem not_first_zero : ¬ First bus step 0 time found := by
  rintro ⟨_, none, _⟩
  omega

/-- The first departure is at the start or else the first one from the next step on. -/
theorem first_succ_iff {tries : Nat} : First bus step (tries + 1) time found ↔
    bus.Departs time ∧ found = time ∨
      ¬ bus.Departs time ∧ First bus step tries (time + step) found := by
  have shifted (count : Nat) : time + step + count * step = time + (count + 1) * step := by
    rw [Nat.succ_mul, Nat.add_assoc, Nat.add_comm step]
  constructor
  · rintro ⟨count, few, rfl, departs, first⟩
    cases count with
    | zero => exact .inl ⟨by simpa using departs, by simp⟩
    | succ count =>
      refine .inr ⟨by simpa using first 0 (by omega), count, by omega, (shifted count).symm, departs, ?_⟩
      intro before less
      rw [shifted]
      exact first (before + 1) (by omega)
  · rintro (⟨departs, rfl⟩ | ⟨waits, count, few, rfl, departs, first⟩)
    · exact ⟨0, by omega, by simp, departs, by simp⟩
    · refine ⟨count + 1, by omega, shifted count, departs, fun before less => ?_⟩
      cases before with
      | zero => simpa using waits
      | succ before =>
        rw [← shifted]
        exact first before (by omega)

theorem seek_of_departs {tries : Nat} (departs : bus.Departs time) (word : time + bus.offset < 2 ^ 64) :
    seek bus step (tries + 1) time = .ok time := by
  rw [seek, Number.word64?_eq_some_iff.mpr ⟨rfl, word⟩]
  exact if_pos departs

theorem seek_of_waits {tries : Nat} (waits : ¬ bus.Departs time)
    (word : time + bus.offset < 2 ^ 64) :
    seek bus step (tries + 1) time = seek bus step tries (time + step) := by
  rw [seek, Number.word64?_eq_some_iff.mpr ⟨rfl, word⟩]
  exact if_neg waits

theorem seek_of_fault {tries : Nat} (wide : ¬ time + bus.offset < 2 ^ 64) :
    seek bus step (tries + 1) time = Outcome.fault := by
  rw [seek, Number.word64?, if_neg (show ¬ time + bus.offset < 18446744073709551616 from wide)]
  rfl

/-- The search finds the first departure, if a word holds it. -/
theorem seek_eq_ok_iff {tries : Nat} : seek bus step tries time = .ok found ↔
    First bus step tries time found ∧ found + bus.offset < 2 ^ 64 := by
  induction tries generalizing time with
  | zero => exact iff_of_false (by rw [seek]; nofun) fun first => not_first_zero first.1
  | succ tries ih =>
    rw [first_succ_iff]
    by_cases word : time + bus.offset < 2 ^ 64
    · by_cases departs : bus.Departs time
      · rw [seek_of_departs departs word]
        simp only [Except.ok.injEq, departs, true_and, not_true_eq_false, false_and, or_false]
        exact ⟨fun same => same ▸ ⟨rfl, word⟩, fun same => same.1.symm⟩
      · rw [seek_of_waits departs word, ih]
        simp [departs]
    · rw [seek_of_fault word]
      refine iff_of_false nofun ?_
      rintro ⟨⟨_, rfl⟩ | ⟨_, count, _, rfl, _⟩, bound⟩ <;> omega

/-- The search reports that there is no departure when it has made all its tries. -/
theorem seek_eq_report_iff {tries : Nat} :
    seek bus step tries time = Outcome.report .neverAligned ↔ ∀ count < tries,
      ¬ bus.Departs (time + count * step) ∧ time + count * step + bus.offset < 2 ^ 64 := by
  induction tries generalizing time with
  | zero => simp [seek]
  | succ tries ih =>
    have shifted (count : Nat) : time + (count + 1) * step = time + step + count * step := by
      rw [Nat.succ_mul, Nat.add_assoc, Nat.add_comm step]
    rw [Nat.forall_lt_succ_left]
    simp only [Nat.zero_mul, Nat.add_zero, shifted]
    by_cases word : time + bus.offset < 2 ^ 64
    · by_cases departs : bus.Departs time
      · rw [seek_of_departs departs word]
        exact iff_of_false nofun fun all => all.1.1 departs
      · rw [seek_of_waits departs word, ih]
        exact (and_iff_right ⟨departs, word⟩).symm
    · rw [seek_of_fault word]
      exact iff_of_false nofun fun all => word all.1.2

end Seeking

section Splits

@[simp] theorem product_nil : product [] = 1 := rfl

@[simp] theorem product_cons : product (bus :: rest) = bus.id * product rest := by
  simp [product]

/-- What holds at each place of a list holds at its first place and at each place of the rest. -/
theorem forall_split_cons {P : List Bus → Bus → Prop} :
    (∀ front last back, bus :: rest = front ++ last :: back → P front last) ↔
      P [] bus ∧ ∀ front last back, rest = front ++ last :: back → P (bus :: front) last := by
  constructor
  · intro all
    exact ⟨all [] bus rest rfl, fun front last back split => all (bus :: front) last back (by simp [split])⟩
  · rintro ⟨here, there⟩ front last back split
    obtain ⟨rfl, list⟩ | ⟨inner, rfl, list⟩ := List.cons_eq_append_iff.mp split
    · cases list
      exact here
    · exact there inner last back list

/-- Something holds at a place of a list when it holds at its first place or at a place of the rest. -/
theorem exists_split_cons {P : List Bus → Bus → Prop} :
    (∃ front last back, bus :: rest = front ++ last :: back ∧ P front last) ↔
      P [] bus ∨ ∃ front last back, rest = front ++ last :: back ∧ P (bus :: front) last := by
  have all : (∀ front last back, bus :: rest = front ++ last :: back → ¬ P front last) ↔
      ¬ P [] bus ∧ ∀ front last back, rest = front ++ last :: back → ¬ P (bus :: front) last :=
    forall_split_cons (P := fun front last => ¬ P front last)
  rw [← not_iff_not]
  push Not
  exact all

theorem sieved_cons : Sieved step (bus :: rest) time ↔
    time % (step * bus.id) < Nat.lcm step bus.id ∧ Sieved (step * bus.id) rest time := by
  unfold Sieved
  rw [forall_split_cons (P := fun front last =>
    time % (step * product front * last.id) < Nat.lcm (step * product front) last.id)]
  simp [Nat.mul_assoc]

theorem inWords_cons : InWords step (bus :: rest) time ↔
    (step * bus.id < 2 ^ 64 ∧ time % (step * bus.id) + bus.offset < 2 ^ 64) ∧
      InWords (step * bus.id) rest time := by
  unfold InWords
  rw [forall_split_cons (P := fun front last => step * product front * last.id < 2 ^ 64 ∧
    time % (step * product front * last.id) + last.offset < 2 ^ 64)]
  simp [Nat.mul_assoc]

end Splits

section Aligning

theorem align_cons_eq_ok_iff : align time step (bus :: rest) = .ok found ↔
    ∃ middle, seek bus step bus.id time = .ok middle ∧ step * bus.id < 2 ^ 64 ∧
      align middle (step * bus.id) rest = .ok found := by
  rw [align, bind_eq_ok_iff]
  refine exists_congr fun middle => and_congr_right fun _ => ?_
  rw [bind_eq_ok_iff]
  simp only [Outcome.orReport_eq_ok_iff, Number.word64?_eq_some_iff]
  constructor
  · rintro ⟨_, ⟨rfl, word⟩, aligned⟩
    exact ⟨word, aligned⟩
  · rintro ⟨word, aligned⟩
    exact ⟨_, ⟨rfl, word⟩, aligned⟩

/-- The next departure in line with the time is the remainder of any later one that the sieve keeps. -/
theorem seek_eq_ok_iff_of_lt (positive : 0 < bus.id) (inside : time < step) {middle : Nat} :
    seek bus step bus.id time = .ok middle ↔ middle % step = time ∧ bus.Departs middle ∧
      middle < Nat.lcm step bus.id ∧ middle + bus.offset < 2 ^ 64 := by
  rw [seek_eq_ok_iff, first_iff positive inside]
  tauto

theorem seek_eq_report_iff_of_lt (positive : 0 < bus.id) (inside : time < step) :
    seek bus step bus.id time = Outcome.report .neverAligned ↔ bus.Misses step time := by
  rw [seek_eq_report_iff, Bus.Misses, ← never_iff positive inside]
  constructor
  · intro all
    exact ⟨fun count less => (all count less).1, (all (bus.id - 1) (by omega)).2⟩
  · rintro ⟨none, last⟩ count less
    have least : count * step ≤ (bus.id - 1) * step := Nat.mul_le_mul_right step (by omega)
    exact ⟨none count less, by omega⟩

theorem lcm_le_mul (positive : 0 < bus.id) (inside : time < step) :
    Nat.lcm step bus.id ≤ step * bus.id :=
  Nat.le_of_dvd (Nat.mul_pos (by omega) positive) (Nat.lcm_dvd_mul step bus.id)

/-- A departure that is found lies within the next step. -/
theorem seek_lt (positive : 0 < bus.id) (inside : time < step)
    (sought : seek bus step bus.id time = .ok found) : found < step * bus.id :=
  ((seek_eq_ok_iff_of_lt positive inside).mp sought).2.2.1.trans_le (lcm_le_mul positive inside)

/-- The sieve finds the aligned time below the product whose remainders it keeps. -/
theorem align_eq_ok_iff (positive : ∀ bus ∈ buses, 0 < bus.id) (inside : time < step) :
    align time step buses = .ok found ↔
      found % step = time ∧ found < step * product buses ∧ Aligned buses found ∧
        Sieved step buses found ∧ InWords step buses found := by
  induction buses generalizing time step with
  | nil =>
    simp only [align, Except.ok.injEq, product_nil, Nat.mul_one]
    constructor
    · rintro rfl
      exact ⟨Nat.mod_eq_of_lt inside, inside, by simp [Aligned], by simp [Sieved], by simp [InWords]⟩
    · rintro ⟨same, bound, _⟩
      rw [← same, Nat.mod_eq_of_lt bound]
  | cons bus rest ih =>
    obtain ⟨here, there⟩ := List.forall_mem_cons.mp positive
    -- The time reached at this bus is the remainder of the final time by the next step.
    have reduce : Nat.ModEq bus.id (found % (step * bus.id)) found :=
      (Nat.mod_modEq found (step * bus.id)).of_mul_left step
    have keeps : found % (step * bus.id) % step = found % step := Nat.mod_mul_right_mod ..
    rw [align_cons_eq_ok_iff, sieved_cons, inWords_cons, product_cons, ← Nat.mul_assoc, Aligned,
      List.forall_mem_cons]
    constructor
    · rintro ⟨middle, sought, word, aligned⟩
      obtain ⟨same, departs, near, held⟩ := (seek_eq_ok_iff_of_lt here inside).mp sought
      obtain ⟨rfl, bound, others, kept, words⟩ := (ih there (seek_lt here inside sought)).mp aligned
      exact ⟨keeps.symm.trans same, bound, ⟨(Bus.Departs.iff_of_modEq reduce).mp departs, others⟩,
        ⟨near, kept⟩, ⟨word, held⟩, words⟩
    · rintro ⟨same, bound, ⟨departs, others⟩, ⟨near, kept⟩, ⟨word, held⟩, words⟩
      have below : found % (step * bus.id) < step * bus.id := near.trans_le (lcm_le_mul here inside)
      refine ⟨found % (step * bus.id), ?_, word, (ih there below).mpr ⟨rfl, bound, others, kept, words⟩⟩
      exact (seek_eq_ok_iff_of_lt here inside).mpr
        ⟨keeps.trans same, (Bus.Departs.iff_of_modEq reduce).mpr departs, near, held⟩

theorem align_cons_eq_report_iff :
    align time step (bus :: rest) = Outcome.report .neverAligned ↔
      seek bus step bus.id time = Outcome.report .neverAligned ∨
        ∃ middle, seek bus step bus.id time = .ok middle ∧ (2 ^ 64 ≤ step * bus.id ∨
          step * bus.id < 2 ^ 64 ∧ align middle (step * bus.id) rest = Outcome.report .neverAligned) := by
  rw [align, bind_eq_report_iff]
  refine or_congr_right (exists_congr fun middle => and_congr_right fun _ => ?_)
  rw [bind_eq_report_iff, Outcome.orReport_eq_report_iff, Number.word64?_eq_none_iff]
  simp only [Outcome.orReport_eq_ok_iff, Number.word64?_eq_some_iff]
  refine or_congr_right ⟨?_, ?_⟩
  · rintro ⟨_, ⟨rfl, word⟩, reports⟩
    exact ⟨word, reports⟩
  · rintro ⟨word, reports⟩
    exact ⟨_, ⟨rfl, word⟩, reports⟩

/-- The sieve reports that there is no departure at the first bus that misses all times in line with those
before, or at which the step outgrows a word. -/
theorem align_eq_report_iff (positive : ∀ bus ∈ buses, 0 < bus.id) (inside : time < step) :
    align time step buses = Outcome.report .neverAligned ↔
      ∃ front bus rest, buses = front ++ bus :: rest ∧ ∃ reached, align time step front = .ok reached ∧
        (bus.Misses (step * product front) reached ∨ bus.Outgrows (step * product front) reached) := by
  induction buses generalizing time step with
  | nil => simp [align, Outcome.report]
  | cons bus rest ih =>
    obtain ⟨here, there⟩ := List.forall_mem_cons.mp positive
    rw [exists_split_cons (P := fun front last => ∃ reached, align time step front = .ok reached ∧
      (last.Misses (step * product front) reached ∨ last.Outgrows (step * product front) reached)),
      align_cons_eq_report_iff, seek_eq_report_iff_of_lt here inside]
    -- The first bus fails on the time itself; a later one fails on what the first bus reaches.
    have first : (∃ reached, align time step [] = .ok reached ∧
        (bus.Misses (step * product []) reached ∨ bus.Outgrows (step * product []) reached)) ↔
        bus.Misses step time ∨ bus.Outgrows step time := by
      simp [align]
    rw [first, or_assoc]
    refine or_congr_right ?_
    constructor
    · rintro ⟨middle, sought, wide | ⟨word, reports⟩⟩
      · exact .inl ⟨⟨middle, (seek_eq_ok_iff_of_lt here inside).mp sought⟩, wide⟩
      · have below := seek_lt here inside sought
        obtain ⟨front, last, back, split, reached, aligned, fails⟩ := (ih there below).mp reports
        refine .inr ⟨front, last, back, split, reached, ?_, ?_⟩
        · exact align_cons_eq_ok_iff.mpr ⟨middle, sought, word, aligned⟩
        · rwa [product_cons, ← Nat.mul_assoc]
    · rintro (⟨⟨middle, departs⟩, wide⟩ | ⟨front, last, back, split, reached, aligned, fails⟩)
      · exact ⟨middle, (seek_eq_ok_iff_of_lt here inside).mpr departs, .inl wide⟩
      · obtain ⟨middle, sought, word, further⟩ := align_cons_eq_ok_iff.mp aligned
        rw [product_cons, ← Nat.mul_assoc] at fails
        exact ⟨middle, sought, .inr ⟨word, (ih there (seek_lt here inside sought)).mpr
          ⟨front, last, back, split, reached, further, fails⟩⟩⟩

end Aligning

section Least

theorem period_pos (positive : ∀ bus ∈ buses, 0 < bus.id) : 0 < period buses := by
  induction buses with
  | nil => exact Nat.one_pos
  | cons bus rest ih =>
    obtain ⟨here, there⟩ := List.forall_mem_cons.mp positive
    exact Nat.lcm_pos here (ih there)

theorem period_dvd_iff {span : Nat} : period buses ∣ span ↔ ∀ bus ∈ buses, bus.id ∣ span := by
  induction buses with
  | nil => simp [period]
  | cons bus rest ih => rw [period, Nat.lcm_dvd_iff, ih, List.forall_mem_cons]

/-- Two aligned times are a multiple of the period apart. -/
theorem Aligned.period_dvd_sub {early : Nat} (aligned : Aligned buses later)
    (other : Aligned buses early) : period buses ∣ later - early :=
  period_dvd_iff.mpr fun bus listed => (aligned bus listed).dvd_sub (other bus listed)

theorem Aligned.sub_period (aligned : Aligned buses time) (late : period buses ≤ time) :
    Aligned buses (time - period buses) := by
  intro bus listed
  have multiple : bus.id ∣ period buses := period_dvd_iff.mp dvd_rfl bus listed
  refine (Bus.Departs.iff_of_modEq ?_).mp (aligned bus listed)
  exact ((Nat.modEq_iff_dvd' (Nat.sub_le ..)).mpr (by rwa [Nat.sub_sub_self late])).symm

/-- An aligned time is the least one when it is less than the period. -/
theorem Aligned.least_iff (positive : ∀ bus ∈ buses, 0 < bus.id) (aligned : Aligned buses time) :
    (∀ early, Aligned buses early → time ≤ early) ↔ time < period buses := by
  have moves := period_pos positive
  constructor
  · intro least
    by_contra late
    have before := least _ (aligned.sub_period (Nat.not_lt.mp late))
    omega
  · intro near early other
    have none := Nat.eq_zero_of_dvd_of_lt (aligned.period_dvd_sub other) (by omega)
    omega

end Least

/-- The departure that is found is the aligned time below the product whose remainder by each step lies
within the first common multiple of the step before and the number of the bus; it is the least aligned
time exactly when it is less than the period. That there is none is reported exactly at the first bus that
misses all times a multiple of the step away from the one found before it, whether or not it departs at
other times at which the buses before it are aligned, or else at which the step outgrows a word. -/
theorem alignedDeparture_sieves (positive : ∀ bus ∈ buses, 0 < bus.id) :
    (∀ time, alignedDeparture buses = .ok time ↔
      Aligned buses time ∧ time < product buses ∧ Sieved 1 buses time ∧ InWords 1 buses time) ∧
    (alignedDeparture buses = Outcome.report .neverAligned ↔
      ∃ front bus rest, buses = front ++ bus :: rest ∧
        ∃ reached, alignedDeparture front = .ok reached ∧
          (bus.Misses (product front) reached ∨ bus.Outgrows (product front) reached)) ∧
    ∀ time, alignedDeparture buses = .ok time →
      ((∀ early, Aligned buses early → time ≤ early) ↔ time < period buses) := by
  have finds (time : Nat) : alignedDeparture buses = .ok time ↔
      Aligned buses time ∧ time < product buses ∧ Sieved 1 buses time ∧ InWords 1 buses time := by
    rw [alignedDeparture, align_eq_ok_iff positive Nat.one_pos, Nat.one_mul]
    constructor
    · rintro ⟨_, bound, aligned, kept, words⟩
      exact ⟨aligned, bound, kept, words⟩
    · rintro ⟨aligned, bound, kept, words⟩
      exact ⟨Nat.mod_one time, bound, aligned, kept, words⟩
  refine ⟨finds, ?_, ?_⟩
  · rw [alignedDeparture, align_eq_report_iff positive Nat.one_pos]
    simp only [Nat.one_mul, alignedDeparture]
  · intro time found
    exact ((finds time).mp found).1.least_iff positive

/-- Two buses with the number 2, after which the steps pass over the time 2. -/
def lateBuses : List Bus := [⟨2, 0⟩, ⟨2, 2⟩, ⟨3, 4⟩]

theorem alignedDeparture_lateBuses : (∀ bus ∈ lateBuses, 0 < bus.id) ∧
    period lateBuses = 6 ∧ alignedDeparture lateBuses = .ok 8 ∧
    (∀ time, alignedDeparture lateBuses = .ok time ↔ Aligned lateBuses time ∧
      time < product lateBuses ∧ Sieved 1 lateBuses time ∧ InWords 1 lateBuses time) ∧
    (alignedDeparture lateBuses = Outcome.report .neverAligned ↔
      ∃ front bus rest, lateBuses = front ++ bus :: rest ∧
        ∃ reached, alignedDeparture front = .ok reached ∧
          (bus.Misses (product front) reached ∨ bus.Outgrows (product front) reached)) ∧
    ∀ time, alignedDeparture lateBuses = .ok time →
      ((∀ early, Aligned lateBuses early → time ≤ early) ↔ time < period lateBuses) := by
  have positive : ∀ bus ∈ lateBuses, 0 < bus.id := by decide
  exact ⟨positive, by decide, by decide +kernel, alignedDeparture_sieves positive⟩

/-- Two buses with the number 2, after which the steps pass over all times at which the third one is in
line with them. -/
def passedBuses : List Bus := [⟨2, 0⟩, ⟨2, 2⟩, ⟨4, 6⟩]

/-- A later time than the least one is found on one list, and on the other one a time is denied that there
is. -/
theorem alignedDeparture_not_least :
    (parse "0\n2,x,2,x,3\n".toList = .ok ⟨0, lateBuses⟩ ∧
      firstAligned ⟨0, lateBuses⟩ = .ok "8" ∧ Aligned lateBuses 2) ∧
    parse "0\n2,x,2,x,x,x,4\n".toList = .ok ⟨0, passedBuses⟩ ∧
      firstAligned ⟨0, passedBuses⟩ = Outcome.report (.noSolution "bus offsets can never line up") ∧
      Aligned passedBuses 2 ∧ product passedBuses < 2 ^ 64 := by
  refine ⟨⟨by rfl, by rfl, by decide⟩, by rfl, by rfl, by decide, by decide⟩

end PuzzleCalendar.Shuttle
