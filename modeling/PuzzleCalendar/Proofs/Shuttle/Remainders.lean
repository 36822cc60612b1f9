import Mathlib.Data.Nat.ChineseRemainder
import PuzzleCalendar.Proofs.Shuttle.Sieve

/-! # Aligned departures of coprime buses

When no two numbers share a factor, the buses so far are in line again after the product of their numbers
and no earlier, and each step of the sieve meets exactly one departure of the next bus. The sieve then finds
the only aligned time below the product, and the tries on the way stay below the product as well, so that
no sum leaves a word if the product leaves room for the offsets.
-/

namespace PuzzleCalendar.Shuttle

open scoped Function

/-- No two numbers share a factor. -/
def Coprime (buses : List Bus) : Prop :=
  buses.Pairwise (Nat.Coprime on Bus.id)

/-- The largest offset of the buses. -/
def largestOffset (buses : List Bus) : Nat :=
  (buses.map Bus.offset).foldr max 0

/-- At each bus, every time that could be tried, the departure after it and the next step are words. -/
def NeverOverflows (buses : List Bus) : Prop :=
  ∀ front bus rest, buses = front ++ bus :: rest → ∃ reached, alignedDeparture front = .ok reached ∧
    product front * bus.id < 2 ^ 64 ∧
    ∀ tries < bus.id, tries * product front < 2 ^ 64 ∧ reached + tries * product front < 2 ^ 64 ∧
      reached + tries * product front + bus.offset < 2 ^ 64

instance (buses : List Bus) : Decidable (Coprime buses) :=
  inferInstanceAs (Decidable (buses.Pairwise _))

variable {bus : Bus} {buses rest : List Bus} {time : Nat}

section Products

theorem product_append {front : List Bus} : product (front ++ rest) = product front * product rest := by
  simp [product]

theorem product_pos (positive : ∀ bus ∈ buses, 0 < bus.id) : 0 < product buses := by
  apply Nat.pos_of_ne_zero
  intro zero
  obtain ⟨bus, listed, none⟩ := List.mem_map.mp (List.prod_eq_zero_iff.mp zero)
  exact (positive bus listed).ne' none

/-- The product up to a place of the list is at most the product of all numbers. -/
theorem product_mul_le {front : List Bus} (positive : ∀ other ∈ front ++ bus :: rest, 0 < other.id) :
    product front * bus.id ≤ product (front ++ bus :: rest) := by
  have later : 0 < product rest := product_pos fun other member => positive other (by simp [member])
  rw [product_append, product_cons, ← Nat.mul_assoc]
  exact Nat.le_mul_of_pos_right _ later

theorem largestOffset_le_iff {bound : Nat} :
    largestOffset buses ≤ bound ↔ ∀ bus ∈ buses, bus.offset ≤ bound := by
  induction buses with
  | nil => simp [largestOffset]
  | cons bus rest ih =>
    rw [List.forall_mem_cons, ← ih]
    exact Nat.max_le

theorem offset_le_largestOffset (listed : bus ∈ buses) : bus.offset ≤ largestOffset buses :=
  largestOffset_le_iff.mp le_rfl bus listed

theorem Coprime.left {front : List Bus} (coprime : Coprime (front ++ rest)) : Coprime front :=
  (List.pairwise_append.mp coprime).1

/-- The number at a place shares no factor with the product before it. -/
theorem Coprime.product_coprime {front : List Bus} (coprime : Coprime (front ++ bus :: rest)) :
    Nat.Coprime (product front) bus.id := by
  apply Nat.coprime_list_prod_left_iff.mpr
  intro number listed
  obtain ⟨other, member, rfl⟩ := List.mem_map.mp listed
  exact (List.pairwise_append.mp coprime).2.2 other member bus List.mem_cons_self

end Products

section Solution

/-- A bus departs at the times with one remainder. -/
theorem Bus.departs_iff_modEq (positive : 0 < bus.id) :
    bus.Departs time ↔ time ≡ bus.id - bus.offset % bus.id [MOD bus.id] := by
  have below : bus.offset % bus.id < bus.id := Nat.mod_lt _ positive
  have departs : bus.Departs (bus.id - bus.offset % bus.id) := by
    apply Bus.departs_iff_dvd.mpr
    have whole : bus.id - bus.offset % bus.id + bus.offset = bus.id + bus.id * (bus.offset / bus.id) := by
      have split := Nat.mod_add_div bus.offset bus.id
      omega
    rw [whole]
    exact Nat.dvd_add dvd_rfl (Nat.dvd_mul_right ..)
  constructor
  · intro given
    apply Nat.ModEq.add_right_cancel' bus.offset
    exact Eq.trans given departs.symm
  · intro same
    exact (Bus.Departs.iff_of_modEq same).mpr departs

/-- Below the product of coprime numbers there is exactly one aligned time. -/
theorem Coprime.exists_aligned (coprime : Coprime buses) (positive : ∀ bus ∈ buses, 0 < bus.id) :
    ∃ time, time < product buses ∧ ∀ other < product buses, Aligned buses other ↔ other = time := by
  let residue (bus : Bus) : Nat := bus.id - bus.offset % bus.id
  have aligned_iff (time : Nat) :
      Aligned buses time ↔ ∀ bus ∈ buses, time ≡ residue bus [MOD bus.id] :=
    forall₂_congr fun bus listed => Bus.departs_iff_modEq (positive bus listed)
  have below := Nat.chineseRemainderOfList_lt_prod residue Bus.id buses coprime
    fun bus listed => (positive bus listed).ne'
  refine ⟨Nat.chineseRemainderOfList residue Bus.id buses coprime, below, ?_⟩
  intro other bound
  constructor
  · intro aligned
    have same := Nat.chineseRemainderOfList_modEq_unique residue Bus.id buses coprime
      ((aligned_iff other).mp aligned)
    exact same.eq_of_lt_of_lt bound below
  · rintro rfl
    exact (aligned_iff _).mpr (Nat.chineseRemainderOfList residue Bus.id buses coprime).prop

end Solution

section Numbers

/-- The search makes no try at a bus with the number zero. -/
theorem positive_of_align {step found : Nat} (aligned : align time step buses = .ok found) :
    ∀ bus ∈ buses, 0 < bus.id := by
  induction buses generalizing time step with
  | nil => simp
  | cons bus rest ih =>
    obtain ⟨middle, sought, _, further⟩ := align_cons_eq_ok_iff.mp aligned
    obtain ⟨⟨_, tries, _⟩, _⟩ := seek_eq_ok_iff.mp sought
    exact List.forall_mem_cons.mpr ⟨by omega, ih further⟩

theorem positive_of_readBuses {ids : List Text} {offset : Nat} (read : readBuses offset ids = .ok buses) :
    ∀ bus ∈ buses, 0 < bus.id := by
  induction ids generalizing offset buses with
  | nil =>
    cases read
    simp
  | cons id rest ih =>
    rw [readBuses] at read
    split at read
    · exact ih read
    · split at read
      · obtain ⟨later, readLater, rfl⟩ := map_eq_ok_iff.mp read
        exact List.forall_mem_cons.mpr ⟨Nat.succ_pos _, ih readLater⟩
      · contradiction

/-- No bus of a schedule that can be read has the number zero. -/
theorem positive_of_parse {text : Text} {schedule : Schedule} (parsed : parse text = .ok schedule) :
    ∀ bus ∈ schedule.buses, 0 < bus.id := by
  rw [parse, Outcome.ofExcept_eq_ok_iff] at parsed
  split at parsed
  · contradiction
  · obtain ⟨earliest, _, parsed⟩ := bind_eq_ok_iff.mp parsed
    split at parsed
    · contradiction
    · obtain ⟨buses, read, parsed⟩ := bind_eq_ok_iff.mp parsed
      split at parsed
      · contradiction
      · cases parsed
        exact positive_of_readBuses read

end Numbers

section Finding

/-- The sieve keeps every time when no two numbers share a factor. -/
theorem Coprime.sieved (coprime : Coprime buses) (positive : ∀ bus ∈ buses, 0 < bus.id) :
    Sieved 1 buses time := by
  rintro front bus rest rfl
  have before : 0 < product front := product_pos fun other member => positive other (by simp [member])
  have here : 0 < bus.id := positive bus (by simp)
  rw [Nat.one_mul, Nat.Coprime.lcm_eq_mul coprime.product_coprime]
  exact Nat.mod_lt _ (Nat.mul_pos before here)

theorem inWords_of_lt (positive : ∀ bus ∈ buses, 0 < bus.id)
    (bound : product buses + largestOffset buses < 2 ^ 64) : InWords 1 buses time := by
  rintro front bus rest rfl
  have before : 0 < product front := product_pos fun other member => positive other (by simp [member])
  have here : 0 < bus.id := positive bus (by simp)
  have upTo := product_mul_le positive
  have offset : bus.offset ≤ largestOffset (front ++ bus :: rest) :=
    offset_le_largestOffset (by simp)
  have remainder : time % (product front * bus.id) < product front * bus.id :=
    Nat.mod_lt _ (Nat.mul_pos before here)
  rw [Nat.one_mul]
  omega

/-- The departure of coprime buses that leave room in a word is the aligned time below the product. -/
theorem Coprime.alignedDeparture_eq_ok_iff (coprime : Coprime buses)
    (positive : ∀ bus ∈ buses, 0 < bus.id) (bound : product buses + largestOffset buses < 2 ^ 64) :
    alignedDeparture buses = .ok time ↔ time < product buses ∧ Aligned buses time := by
  rw [alignedDeparture, align_eq_ok_iff positive Nat.one_pos, Nat.one_mul]
  constructor
  · rintro ⟨_, below, aligned, _⟩
    exact ⟨below, aligned⟩
  · rintro ⟨below, aligned⟩
    exact ⟨Nat.mod_one time, below, aligned, coprime.sieved positive, inWords_of_lt positive bound⟩

theorem Coprime.exists_alignedDeparture (coprime : Coprime buses)
    (positive : ∀ bus ∈ buses, 0 < bus.id) (bound : product buses + largestOffset buses < 2 ^ 64) :
    ∃ time, alignedDeparture buses = .ok time ∧ time < product buses ∧
      ∀ other < product buses, Aligned buses other ↔ other = time := by
  obtain ⟨time, below, only⟩ := coprime.exists_aligned positive
  have aligned : Aligned buses time := (only time below).mpr rfl
  exact ⟨time, (coprime.alignedDeparture_eq_ok_iff positive bound).mpr ⟨below, aligned⟩, below, only⟩

/-- The tries at a bus lie below the next step, which is at most the product of all numbers. -/
theorem Coprime.neverOverflows (coprime : Coprime buses) (positive : ∀ bus ∈ buses, 0 < bus.id)
    (bound : product buses + largestOffset buses < 2 ^ 64) : NeverOverflows buses := by
  rintro front bus rest rfl
  have upTo := product_mul_le positive
  have offset : bus.offset ≤ largestOffset (front ++ bus :: rest) :=
    offset_le_largestOffset (by simp)
  have here : 0 < bus.id := positive bus (by simp)
  have earlier : ∀ other ∈ front, 0 < other.id := fun other member => positive other (by simp [member])
  have room : product front + largestOffset front < 2 ^ 64 := by
    have less : product front ≤ product front * bus.id := Nat.le_mul_of_pos_right _ here
    have offsets : largestOffset front ≤ largestOffset (front ++ bus :: rest) :=
      largestOffset_le_iff.mpr fun other member => offset_le_largestOffset (by simp [member])
    omega
  obtain ⟨reached, departs, below, _⟩ := coprime.left.exists_alignedDeparture earlier room
  refine ⟨reached, departs, by omega, fun tries few => ?_⟩
  have last : (tries + 1) * product front ≤ product front * bus.id := by
    rw [Nat.mul_comm (product front)]
    exact Nat.mul_le_mul_right _ few
  rw [Nat.succ_mul] at last
  omega

end Finding

/-- A departure that is found is aligned, whatever the numbers. When they share no factor and a word has
room for their product and the largest offset, the one aligned time below the product is found, and nothing
overflows on the way. -/
theorem alignedDeparture_solves_remainders :
    (∀ buses time, alignedDeparture buses = .ok time → Aligned buses time) ∧
    (∀ buses, Coprime buses → (∀ bus ∈ buses, 0 < bus.id) →
      product buses + largestOffset buses < 2 ^ 64 →
      (∃ time, alignedDeparture buses = .ok time ∧ time < product buses ∧
        ∀ other < product buses, Aligned buses other ↔ other = time) ∧ NeverOverflows buses) ∧
    ∀ text schedule, parse text = .ok schedule → ∀ bus ∈ schedule.buses, 0 < bus.id := by
  refine ⟨?_, ?_, fun text schedule => positive_of_parse⟩
  · intro buses time found
    have positive : ∀ bus ∈ buses, 0 < bus.id := positive_of_align found
    exact ((align_eq_ok_iff positive Nat.one_pos).mp found).2.2.1
  · intro buses coprime positive bound
    exact ⟨coprime.exists_alignedDeparture positive bound, coprime.neverOverflows positive bound⟩

/-- Four buses with prime numbers, the largest of them near the middle of the list. -/
def primeBuses : List Bus := [⟨1789, 0⟩, ⟨37, 1⟩, ⟨47, 2⟩, ⟨1889, 3⟩]

theorem alignedDeparture_primeBuses :
    (parse "0\n1789,37,47,1889\n".toList = .ok ⟨0, primeBuses⟩ ∧ Coprime primeBuses ∧
      (∀ bus ∈ primeBuses, 0 < bus.id) ∧ product primeBuses + largestOffset primeBuses < 2 ^ 64) ∧
    (∀ time, alignedDeparture primeBuses = .ok time → Aligned primeBuses time) ∧
    (∃ time, alignedDeparture primeBuses = .ok time ∧ time < product primeBuses ∧
      ∀ other < product primeBuses, Aligned primeBuses other ↔ other = time) ∧
    NeverOverflows primeBuses ∧ alignedDeparture primeBuses = .ok 1202161486 := by
  have read : parse "0\n1789,37,47,1889\n".toList = .ok ⟨0, primeBuses⟩ := by rfl
  have coprime : Coprime primeBuses := by decide
  have bound : product primeBuses + largestOffset primeBuses < 2 ^ 64 := by decide
  obtain ⟨sound, complete, positive⟩ := alignedDeparture_solves_remainders
  have numbered := positive _ _ read
  obtain ⟨found, fits⟩ := complete primeBuses coprime numbered bound
  exact ⟨⟨read, coprime, numbered, bound⟩, sound primeBuses, found, fits, by decide +kernel⟩

end PuzzleCalendar.Shuttle
