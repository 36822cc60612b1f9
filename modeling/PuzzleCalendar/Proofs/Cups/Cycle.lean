import PuzzleCalendar.Proofs.Cups.Row

/-! # One cycle of cups

A circle that shows a row of all cups is one single cycle: reading it from the current cup gives the row, and
reading it from the first cup gives all other ones once. A game on the successors and the same game on a row
therefore never part.
-/

namespace PuzzleCalendar.Cups

variable {circle : Circle} {row cups : List Nat} {cup current total : Nat}

namespace Circle

/-- The entries of the labels up to `total` permute them in one single cycle. -/
def SingleCycle (circle : Circle) (total : Nat) : Prop :=
  ∃ ring : Equiv.Perm Nat, ring.IsCycleOn (Set.Icc 1 total) ∧
    ∀ label ∈ Set.Icc 1 total, circle.next[label]? = some (ring label)

/-- The three cups after the current one. -/
def picked (circle : Circle) : List Nat :=
  let first := circle.after circle.current
  [first, circle.after first, circle.after (circle.after first)]

/-- The circle with the cups up to `total` stands for a row of them: it is one cycle that reads as the row,
its next search for a destination ends, and the labels after the first cup are all others in their order,
whatever number of them is allowed for. -/
structure Refines (circle : Circle) (total : Nat) (row : List Nat) : Prop where
  cycle : circle.SingleCycle total
  reads : List.iterate circle.after circle.current total = row
  search : ∃ steps ≤ 3, circle.SearchEnds circle.picked (circle.below circle.current) steps ∧
    circle.destination circle.picked (circle.below circle.current) =
      circle.below^[steps + 1] circle.current
  others : circle.afterFirst.Perm (List.range' 2 (total - 1))
  around : (1 :: circle.afterFirst) ~r row
  unbounded : ∀ count, total - 1 ≤ count → circle.labelsFrom count (circle.after 1) = circle.afterFirst

section Reading

theorem Shows.length_eq (shows : circle.Shows row) : row.length = circle.highest := by
  simpa using shows.all.length_eq

theorem Shows.mem_iff (shows : circle.Shows row) : cup ∈ row ↔ cup ∈ Set.Icc 1 circle.highest := by
  rw [shows.all.mem_iff, List.mem_range'_1, Set.mem_Icc]
  omega

/-- Reading a chain of cups gives them back. -/
theorem iterate_after {last : Nat} (chain : (cup :: cups ++ [last]).IsChain circle.Leads) :
    List.iterate circle.after cup (cup :: cups).length = cup :: cups := by
  induction cups generalizing cup with
  | nil => rfl
  | cons next rest ih =>
    simp only [List.cons_append, List.isChain_cons_cons] at chain
    obtain ⟨leads, tail⟩ := chain
    rw [List.length_cons, List.iterate, leads.after_eq, ih tail]

theorem Shows.reads (shows : circle.Shows row) :
    List.iterate circle.after circle.current circle.highest = row := by
  rw [← shows.length_eq]
  match row, shows with
  | [], shows => rfl
  | cup :: cups, shows =>
    obtain rfl : cup = circle.current := by simpa using shows.starts
    exact iterate_after shows.linked

theorem Shows.singleCycle (shows : circle.Shows row) : circle.SingleCycle circle.highest := by
  have members : {cup | cup ∈ row} = Set.Icc 1 circle.highest := by
    ext cup
    exact shows.mem_iff
  refine ⟨row.formPerm, members ▸ shows.nodup.isCycleOn_formPerm, ?_⟩
  intro label inside
  obtain ⟨place, bound, rfl⟩ := List.mem_iff_getElem.mp (shows.mem_iff.mpr inside)
  rw [List.formPerm_apply_getElem row shows.nodup place bound]
  have link := List.isChain_iff_getElem.mp shows.linked place (by simpa using bound)
  rw [List.getElem_append_left bound] at link
  refine link.trans (congrArg some ?_)
  by_cases last : place + 1 < row.length
  · rw [List.getElem_append_left last]
    simp only [Nat.mod_eq_of_lt last]
  · have whole : place + 1 = row.length := by omega
    have filled : 0 < row.length := by omega
    have start : row[0] = circle.current := by
      have head := shows.starts
      rw [List.head?_eq_getElem?, List.getElem?_eq_getElem filled] at head
      exact Option.some.inj head
    simp [whole, start]

end Reading

section Others

/-- The circle can be read from its first cup as well. -/
theorem Shows.exists_around (shows : circle.Shows row) (positive : 1 ≤ circle.highest) :
    ∃ others, (1 :: others ++ [1]).IsChain circle.Leads ∧ (1 :: others) ~r row := by
  have listed : 1 ∈ row := shows.mem_iff.mpr ⟨le_rfl, positive⟩
  obtain ⟨front, back, rfl⟩ := List.append_of_mem listed
  have linked := shows.linked
  rw [List.append_assoc, List.cons_append, List.isChain_split] at linked
  obtain ⟨before, behind⟩ := linked
  refine ⟨back ++ front, ?_, List.isRotated_append (l := 1 :: back)⟩
  cases front with
  | nil =>
    have start : 1 = circle.current := by simpa using shows.starts
    simpa [start] using behind
  | cons cup front =>
    obtain rfl : cup = circle.current := by simpa using shows.starts
    rw [List.cons_append, List.append_assoc, List.cons_append]
    exact List.isChain_cons_split.mpr ⟨behind, before⟩

/-- The labels up to the first cup are read off a chain that ends with it. -/
theorem labelsFrom_after {others : List Nat} {count : Nat}
    (chain : (cup :: others ++ [1]).IsChain circle.Leads) (fresh : 1 ∉ others)
    (enough : others.length ≤ count) : circle.labelsFrom count (circle.after cup) = others := by
  induction others generalizing cup count with
  | nil =>
    have leads : circle.Leads cup 1 := by simpa using chain
    rw [leads.after_eq]
    cases count <;> rfl
  | cons next rest ih =>
    simp only [List.cons_append, List.isChain_cons_cons] at chain
    obtain ⟨leads, tail⟩ := chain
    simp only [List.mem_cons, not_or] at fresh
    obtain ⟨few, rfl⟩ : ∃ few, count = few + 1 := ⟨count - 1, by simp at enough; omega⟩
    rw [leads.after_eq, labelsFrom, if_neg (Ne.symm fresh.1),
      ih tail fresh.2 (by simpa using enough)]

/-- A circle that shows a row of five or more cups stands for it. -/
theorem Shows.refines (shows : circle.Shows row) (enough : 5 ≤ circle.highest) :
    circle.Refines circle.highest row := by
  obtain ⟨others, chain, around⟩ := shows.exists_around (by omega)
  have all : (1 :: others).Perm (1 :: List.range' 2 (circle.highest - 1)) := by
    obtain ⟨more, whole⟩ : ∃ more, circle.highest = more + 1 := ⟨circle.highest - 1, by omega⟩
    have listed := around.perm.trans shows.all
    rw [whole] at listed ⊢
    exact listed
  have fresh : 1 ∉ others :=
    (List.nodup_cons.mp (all.nodup_iff.mpr (List.nodup_cons.mpr ⟨by simp, List.nodup_range'⟩))).1
  have length_eq : others.length = circle.highest - 1 := by
    simpa using all.length_eq
  have afterFirst_eq : circle.afterFirst = others :=
    labelsFrom_after chain fresh (by omega)
  have range : circle.current ∈ Set.Icc 1 circle.highest :=
    shows.mem_iff.mp (List.mem_of_mem_head? shows.starts)
  constructor
  case cycle => exact shows.singleCycle
  case reads => exact shows.reads
  case search => exact destination_searchEnds range.1 range.2 rfl enough
  case others => exact afterFirst_eq ▸ all.cons_inv
  case around => exact afterFirst_eq ▸ around
  case unbounded =>
    intro count large
    rw [afterFirst_eq]
    exact labelsFrom_after chain fresh (by omega)

end Others

end Circle

/-- From any labels on, with any number of further cups that makes five or more, any number of moves on the
circle gives one cycle that stands for the row after the same moves. -/
theorem play_refines_row {labels : List Nat} (permutation : labels.Perm (List.range' 1 labels.length))
    (fits : max labels.length 5 ≤ total) (moves : Nat) :
    ((Circle.ofLabels labels total).play moves).Refines total
      (moveRow^[moves] (labels ++ List.range' (labels.length + 1) (total - labels.length))) := by
  obtain ⟨few, enough⟩ := Nat.max_le.mp fits
  have start := shows_ofLabels permutation few (by omega)
  have highest : (Circle.ofLabels labels total).highest = total := by
    rw [← start.length_eq, (order_perm permutation few).length_eq, List.length_range']
  obtain ⟨shows, kept⟩ := start.play (by omega) moves
  have stands := shows.refines (by omega)
  rwa [kept, highest] at stands

/-- Nine cups, of which the current one has a low label, so that its destination soon wraps around. -/
def nineCups : List Nat := [3, 8, 9, 1, 2, 5, 4, 6, 7]

theorem play_nineCups : (nineCups.Perm (List.range' 1 nineCups.length) ∧ max nineCups.length 5 ≤ 9) ∧
    ((Circle.ofLabels nineCups 9).play 10).Refines 9 (moveRow^[10] nineCups) ∧
    moveRow^[10] nineCups = [8, 3, 7, 4, 1, 9, 2, 6, 5] := by
  have permutation : nineCups.Perm (List.range' 1 nineCups.length) := by decide
  have fits : max nineCups.length 5 ≤ 9 := by decide
  exact ⟨⟨permutation, fits⟩, play_refines_row permutation fits 10, by decide⟩

end PuzzleCalendar.Cups
