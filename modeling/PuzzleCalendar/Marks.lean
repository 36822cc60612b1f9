import Std.Data.HashSet

/-! # Marks

A search that visits each place of a finite list at most once keeps the places it has marked, in a list
or in a set. Marking a fresh place lowers the number of unmarked ones, and that number bounds the
search.
-/

namespace PuzzleCalendar

variable {α : Type} [DecidableEq α]

/-- The number of places that carry no mark. -/
def unmarked (places marks : List α) : Nat :=
  places.countP fun place => !marks.contains place

theorem unmarked_le_of_subset (places : List α) {marks more : List α} (subset : marks ⊆ more) :
    unmarked places more ≤ unmarked places marks :=
  List.countP_mono_left fun place _ => by
    simpa using fun fresh marked => fresh (subset marked)

/-- Marking more places, one of them fresh, leaves fewer places to visit. -/
theorem unmarked_lt_of_subset {places marks more : List α} {place : α} (subset : marks ⊆ more)
    (member : place ∈ places) (fresh : place ∉ marks) (marked : place ∈ more) :
    unmarked places more < unmarked places marks := by
  induction places with
  | nil => simp at member
  | cons head rest ih =>
    have bound := unmarked_le_of_subset rest subset
    unfold unmarked at ih bound ⊢
    simp only [List.countP_cons]
    by_cases same : head = place
    · subst same
      simp [fresh, marked]
      simp at bound
      omega
    · rcases List.mem_cons.mp member with equal | later
      · exact absurd equal.symm same
      · have smaller := ih later
        by_cases known : head ∈ more
        · simp only [List.contains_iff_mem.mpr known, Bool.not_true, Bool.false_eq_true, if_false]
          omega
        · have unknown : head ∉ marks := fun marked => known (subset marked)
          simp only [List.contains_iff_mem, known, unknown, Bool.not_eq_true', Bool.eq_false_iff,
            ne_eq, not_false_eq_true, if_true]
          omega

/-- Marking a fresh place leaves fewer places to visit. -/
theorem unmarked_cons_lt {places marks : List α} {place : α} (member : place ∈ places)
    (fresh : place ∉ marks) : unmarked places (place :: marks) < unmarked places marks :=
  unmarked_lt_of_subset (List.subset_cons_self _ _) member fresh List.mem_cons_self

/-- Marking a fresh place in a set leaves fewer places to visit. -/
theorem unmarked_insert_lt [BEq α] [LawfulBEq α] [Hashable α] {places : List α}
    {marks : Std.HashSet α} {place : α} (member : place ∈ places) (fresh : place ∉ marks) :
    unmarked places (marks.insert place).toList < unmarked places marks.toList := by
  refine unmarked_lt_of_subset (fun other marked => ?_) member (fun marked => ?_) ?_
  · exact Std.HashSet.mem_toList.mpr
      (Std.HashSet.mem_insert.mpr (.inr (Std.HashSet.mem_toList.mp marked)))
  · exact fresh (Std.HashSet.mem_toList.mp marked)
  · exact Std.HashSet.mem_toList.mpr Std.HashSet.mem_insert_self

/-- The members of both lists, those of the first list before the new ones. -/
def merged (list new : List α) : List α :=
  new.foldl (fun all element => if element ∈ all then all else all ++ [element]) list

@[simp] theorem mem_merged {list new : List α} {element : α} :
    element ∈ merged list new ↔ element ∈ list ∨ element ∈ new := by
  unfold merged
  induction new generalizing list with
  | nil => simp
  | cons head rest ih =>
    rw [List.foldl_cons, ih]
    by_cases known : head ∈ list
    · simp only [known, if_true, List.mem_cons]
      constructor
      · rintro (old | later)
        · exact .inl old
        · exact .inr (.inr later)
      · rintro (old | same | later)
        · exact .inl old
        · exact .inl (same ▸ known)
        · exact .inr later
    · simp [known, or_assoc]

/-- Merging adds no member twice. -/
theorem nodup_merged {list : List α} (distinct : list.Nodup) (new : List α) : (merged list new).Nodup := by
  unfold merged
  induction new generalizing list with
  | nil => exact distinct
  | cons head rest ih =>
    rw [List.foldl_cons]
    apply ih
    by_cases known : head ∈ list
    · rwa [if_pos known]
    · rw [if_neg known, List.nodup_append]
      refine ⟨distinct, List.pairwise_singleton _ head, fun one member two same => ?_⟩
      rw [List.mem_singleton] at same
      rintro rfl
      exact known (same ▸ member)

section Repetitions

omit [DecidableEq α]

/-- Dropping repetitions goes on with what differs from the first member. -/
theorem eraseDups_induction [BEq α] {motive : List α → Prop} (nil : motive [])
    (cons : ∀ head rest, motive (rest.filter fun other => !other == head) → motive (head :: rest))
    (list : List α) : motive list := by
  induction size : list.length using Nat.strongRecOn generalizing list with
  | _ size ih =>
    cases list with
    | nil => exact nil
    | cons head rest =>
      have fewer := List.length_filter_le (fun other => !other == head) rest
      rw [List.length_cons] at size
      exact cons head rest (ih _ (by omega) _ rfl)

theorem nodup_eraseDups [BEq α] [LawfulBEq α] (list : List α) : list.eraseDups.Nodup := by
  induction list using eraseDups_induction with
  | nil => exact List.nodup_nil
  | cons head rest ih =>
    rw [List.eraseDups_cons, List.nodup_cons]
    exact ⟨by simp, ih⟩

end Repetitions

end PuzzleCalendar
