import Mathlib.Data.List.Nodup
import PuzzleCalendar.Puzzles.Docking

/-! # Decoding addresses

One less than a set of floating bits, without the bits that do not float, is the next smaller set of
floating bits. So going down from all floating bits meets every set of them once, and an address under a
mask stands once for each cell that agrees with it wherever no bit floats.
-/

namespace PuzzleCalendar.Docking

/-- No set of bits of `floating` lies between `bits`, which is one, and what one less has of `floating`. -/
theorem le_pred_and_of_lt {floating bits smaller : Nat} (within : bits &&& floating = bits)
    (inside : smaller &&& floating = smaller) (below : smaller < bits) :
    smaller ≤ (bits - 1) &&& floating := by
  induction floating using Nat.strongRecOn generalizing bits smaller with
  | _ floating ih =>
    have halves : bits / 2 &&& floating / 2 = bits / 2 := by rw [← Nat.and_div_two, within]
    have halves' : smaller / 2 &&& floating / 2 = smaller / 2 := by rw [← Nat.and_div_two, inside]
    have next : ((bits - 1) &&& floating) / 2 = (bits - 1) / 2 &&& floating / 2 := Nat.and_div_two
    rcases Nat.mod_two_eq_zero_or_one bits with even | odd
    · -- The lowest bit is borrowed, so all that floats at the bottom is set.
      have positive : 0 < floating := by
        by_contra zero
        have none : floating = 0 := by omega
        rw [none, Nat.and_zero] at within
        omega
      have half := ih (floating / 2) (by omega) halves halves' (by omega)
      have lowest : smaller % 2 = 1 → ((bits - 1) &&& floating) % 2 = 1 := by
        intro set
        rw [← inside, Nat.and_mod_two_eq_one] at set
        exact Nat.and_mod_two_eq_one.mpr ⟨by omega, set.2⟩
      have shifted : (bits - 1) / 2 = bits / 2 - 1 := by omega
      rw [shifted] at next
      omega
    · have same : (bits - 1) / 2 = bits / 2 := by omega
      rw [same, halves] at next
      omega

/-- Going down from a set of floating bits meets exactly the sets of floating bits up to it. -/
theorem mem_submasks {floating bits other : Word} (within : bits &&& floating = bits) :
    other ∈ submasks floating bits ↔ other &&& floating = other ∧ other.toNat ≤ bits.toNat := by
  induction bits using submasks.induct floating with
  | case1 =>
    rw [submasks, if_pos rfl, List.mem_singleton]
    constructor
    · rintro rfl
      exact ⟨within, Nat.le_refl _⟩
    · rintro ⟨-, least⟩
      exact BitVec.eq_of_toNat_eq (Nat.le_zero.mp least)
  | case2 bits positive ih =>
    have smaller : ((bits - 1) &&& floating) &&& floating = (bits - 1) &&& floating := by
      rw [BitVec.and_assoc, BitVec.and_self]
    have pred : (bits - 1).toNat = bits.toNat - 1 := by bv_omega
    rw [submasks, if_neg positive, List.mem_cons, ih smaller]
    constructor
    · rintro (rfl | ⟨inside, bound⟩)
      · exact ⟨within, Nat.le_refl _⟩
      · rw [BitVec.toNat_and, pred] at bound
        exact ⟨inside, Nat.le_trans bound (Nat.le_trans Nat.and_le_left (Nat.sub_le _ _))⟩
    · rintro ⟨inside, bound⟩
      by_cases same : other = bits
      · exact .inl same
      · refine .inr ⟨inside, ?_⟩
        rw [BitVec.toNat_and, pred]
        apply le_pred_and_of_lt
        · rw [← BitVec.toNat_and, within]
        · rw [← BitVec.toNat_and, inside]
        · exact Nat.lt_of_le_of_ne bound fun equal => same (BitVec.eq_of_toNat_eq equal)

theorem nodup_submasks {floating bits : Word} (within : bits &&& floating = bits) :
    (submasks floating bits).Nodup := by
  induction bits using submasks.induct floating with
  | case1 =>
    rw [submasks, if_pos rfl]
    exact List.nodup_singleton 0
  | case2 bits positive ih =>
    have smaller : ((bits - 1) &&& floating) &&& floating = (bits - 1) &&& floating := by
      rw [BitVec.and_assoc, BitVec.and_self]
    rw [submasks, if_neg positive, List.nodup_cons]
    refine ⟨fun again => ?_, ih smaller⟩
    have bound := ((mem_submasks smaller).mp again).2
    have pred : ((bits - 1) &&& floating).toNat ≤ (bits - 1).toNat := by
      rw [BitVec.toNat_and]
      exact Nat.and_le_left
    bv_omega

/-- A cell is one of those that an address stands for: where a bit does not float, the cell has it when the
mask sets it or the address has it. -/
def Mask.Decodes (mask : Mask) (address cell : Word) : Prop :=
  ∀ place, mask.floating.getLsbD place = false →
    cell.getLsbD place = (address.getLsbD place || mask.ones.getLsbD place)

namespace Mask

variable {mask : Mask} {address cell bits : Word} {place : Nat}

theorem getLsbD_of_within (within : bits &&& mask.floating = bits)
    (fixed : mask.floating.getLsbD place = false) : bits.getLsbD place = false := by
  rw [← within, BitVec.getLsbD_and, fixed, Bool.and_false]

/-- A bit that floats is the one of the chosen set, and any other bit is set by the address or the mask. -/
theorem getLsbD_address (within : bits &&& mask.floating = bits) :
    (((address ||| mask.ones) &&& ~~~mask.floating) ||| bits).getLsbD place =
      if mask.floating.getLsbD place then bits.getLsbD place
      else address.getLsbD place || mask.ones.getLsbD place := by
  by_cases inside : place < 64
  · cases floats : mask.floating.getLsbD place with
    | true => simp only [BitVec.getLsbD_or, BitVec.getLsbD_and, BitVec.getLsbD_not, floats, inside,
        Bool.not_true, Bool.and_false, Bool.false_or, if_true]
    | false => simp only [BitVec.getLsbD_or, BitVec.getLsbD_and, BitVec.getLsbD_not, floats, inside,
        getLsbD_of_within within floats, decide_true, Bool.not_false, Bool.and_true, Bool.or_false,
        Bool.false_eq_true, if_false]
  · simp only [BitVec.getLsbD_of_ge _ _ (Nat.not_lt.mp inside), Bool.or_false, ite_self]

theorem mem_addresses : cell ∈ mask.addresses address ↔ mask.Decodes address cell := by
  have all : mask.floating &&& mask.floating = mask.floating := BitVec.and_self
  rw [addresses, List.mem_map]
  constructor
  · rintro ⟨bits, member, rfl⟩ place fixed
    rw [getLsbD_address ((mem_submasks all).mp member).1, if_neg (by simp [fixed])]
  · intro decodes
    have within : (cell &&& mask.floating) &&& mask.floating = cell &&& mask.floating := by
      rw [BitVec.and_assoc, BitVec.and_self]
    refine ⟨cell &&& mask.floating, (mem_submasks all).mpr ⟨within, ?_⟩, ?_⟩
    · rw [BitVec.toNat_and]
      exact Nat.and_le_right
    · apply BitVec.eq_of_getLsbD_eq
      intro place _
      rw [getLsbD_address within]
      cases floats : mask.floating.getLsbD place with
      | true => rw [if_pos rfl, BitVec.getLsbD_and, floats, Bool.and_true]
      | false => rw [if_neg Bool.false_ne_true, decodes place floats]

/-- No cell comes twice among those that an address stands for. -/
theorem nodup_addresses (mask : Mask) (address : Word) : (mask.addresses address).Nodup := by
  have all : mask.floating &&& mask.floating = mask.floating := BitVec.and_self
  apply List.Nodup.map_on _ (nodup_submasks all)
  intro one oneMember two twoMember same
  have oneWithin := ((mem_submasks all).mp oneMember).1
  have twoWithin := ((mem_submasks all).mp twoMember).1
  apply BitVec.eq_of_getLsbD_eq
  intro place _
  have bit := congrArg (·.getLsbD place) same
  simp only [getLsbD_address oneWithin, getLsbD_address twoWithin] at bit
  cases floats : mask.floating.getLsbD place with
  | true => simpa only [floats, if_true] using bit
  | false => rw [getLsbD_of_within oneWithin floats, getLsbD_of_within twoWithin floats]

end Mask

end PuzzleCalendar.Docking
