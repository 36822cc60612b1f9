import Mathlib.Data.List.Chain
import Mathlib.Data.List.Rotate
import Mathlib.GroupTheory.Perm.Cycle.Basic
import PuzzleCalendar.Proofs.Cups.Destination

/-! # The circle of cups and a row of cups

A row lists all cups from the current one on. A circle shows a row when the entry of each cup is the next
cup of the row and the entry of the last one is the first. The three writes of a move then cut the row before
the cups that are picked up and after them, and join it again where they land, so that the circle shows the
row after the same move. From that follow the games: the entries stay one single cycle, and reading them gives
the row.
-/

namespace PuzzleCalendar.Cups

variable {circle : Circle} {row front back : List Nat}
  {cup other first second third target current total : Nat}

namespace Circle

section Links

/-- The entry of a cup is the other cup. -/
def Leads (circle : Circle) (cup other : Nat) : Prop :=
  circle.next[cup]? = some other

/-- The circle with another entry for a cup. -/
def relink (circle : Circle) (cup other : Nat) : Circle :=
  { circle with next := circle.next.setIfInBounds cup other }

theorem Leads.after_eq (leads : circle.Leads cup other) : circle.after cup = other := by
  rw [after, Array.getD_eq_getD_getElem?, leads, Option.getD_some]

@[simp] theorem size_relink : (circle.relink cup other).next.size = circle.next.size :=
  Array.size_setIfInBounds

theorem leads_relink (inside : cup < circle.next.size) : (circle.relink cup other).Leads cup other := by
  simp [Leads, relink, inside]

theorem leads_relink_of_ne {start finish : Nat} (apart : start ≠ cup) :
    (circle.relink cup other).Leads start finish ↔ circle.Leads start finish := by
  simp [Leads, relink, apart.symm]

end Links

/-- The circle shows the row: from its current cup on, its entries go through the row and back to the
start, and the row has all cups. -/
structure Shows (circle : Circle) (row : List Nat) : Prop where
  starts : row.head? = some circle.current
  all : row.Perm (List.range' 1 circle.highest)
  linked : (row ++ [circle.current]).IsChain circle.Leads

end Circle

/-- The row with some cups put after a cup. -/
def putAfter (target : Nat) (cups : List Nat) : List Nat → List Nat
  | [] => []
  | cup :: rest => if cup = target then cup :: cups ++ rest else cup :: putAfter target cups rest

/-- One move on a row: the three cups after the first one are put after the cup where they land, and the
row then starts at the next cup. -/
def moveRow : List Nat → List Nat
  | current :: first :: second :: third :: rest =>
    match landing? current rest with
    | some target => putAfter target [first, second, third] rest ++ [current]
    | none => current :: first :: second :: third :: rest
  | row => row

section Moving

/-- A chain only uses the entries of its cups but the last one. -/
theorem isChain_concat_imp {R S : Nat → Nat → Prop} {cups : List Nat} {last : Nat}
    (chain : (cups ++ [last]).IsChain R) (keeps : ∀ cup ∈ cups, ∀ other, R cup other → S cup other) :
    (cups ++ [last]).IsChain S := by
  induction cups with
  | nil => exact List.isChain_singleton last
  | cons cup rest ih =>
    obtain ⟨here, there⟩ := List.forall_mem_cons.mp keeps
    obtain ⟨next, tail⟩ := List.isChain_cons.mp chain
    exact List.isChain_cons.mpr ⟨fun other head => here other (next other head), ih tail there⟩

namespace Circle

/-- The entries of the circle after the three cups after its current one are put after a cup. -/
def spliced (circle : Circle) (first third target : Nat) : Circle :=
  ((circle.relink circle.current (circle.after third)).relink third (circle.after target)).relink
    target first

theorem move_eq (one : circle.after circle.current = first) (two : circle.after first = second)
    (three : circle.after second = third)
    (lands : circle.destination [first, second, third] (circle.below circle.current) = target) :
    circle.move = { circle.spliced first third target with
      current := (circle.spliced first third target).after circle.current } := by
  subst one two three
  rw [move, lands]
  rfl

@[simp] theorem size_spliced : (circle.spliced first third target).next.size = circle.next.size := by
  simp [spliced]

theorem leads_spliced_target (inside : target < circle.next.size) :
    (circle.spliced first third target).Leads target first :=
  leads_relink (by simpa using inside)

theorem leads_spliced_third (inside : third < circle.next.size) (apart : third ≠ target) :
    (circle.spliced first third target).Leads third (circle.after target) :=
  (leads_relink_of_ne apart).mpr (leads_relink (by simpa using inside))

theorem leads_spliced_current (inside : circle.current < circle.next.size)
    (apart_third : circle.current ≠ third) (apart_target : circle.current ≠ target) :
    (circle.spliced first third target).Leads circle.current (circle.after third) :=
  (leads_relink_of_ne apart_target).mpr ((leads_relink_of_ne apart_third).mpr (leads_relink inside))

/-- The entries of the cups that are not written stay. -/
theorem leads_spliced_of_ne (apart_current : cup ≠ circle.current) (apart_third : cup ≠ third)
    (apart_target : cup ≠ target) (leads : circle.Leads cup other) :
    (circle.spliced first third target).Leads cup other := by
  apply (leads_relink_of_ne apart_target).mpr
  apply (leads_relink_of_ne apart_third).mpr
  exact (leads_relink_of_ne apart_current).mpr leads

/-- A circle that shows a row has an entry for each cup of it. -/
theorem Shows.lt_size (shows : circle.Shows row) (listed : cup ∈ row) : cup < circle.next.size := by
  have range := List.mem_range'_1.mp (shows.all.mem_iff.mp listed)
  have highest_eq : circle.highest = circle.next.size - 1 := rfl
  omega

theorem Shows.nodup (shows : circle.Shows row) : row.Nodup :=
  shows.all.nodup_iff.mpr List.nodup_range'

theorem perm_splice : (front ++ target :: first :: second :: third :: back ++ [current]).Perm
    (current :: first :: second :: third :: (front ++ target :: back)) := by
  refine List.perm_iff_count.mpr fun cup => ?_
  simp only [List.count_append, List.count_cons, List.count_nil]
  omega

/-- A move takes the cups out after the current one and joins them in after the one where they land. -/
theorem Shows.move (shows : circle.Shows (current :: first :: second :: third :: (front ++ target :: back)))
    (lands : circle.destination [first, second, third] (circle.below current) = target) :
    circle.move.Shows (front ++ target :: first :: second :: third :: back ++ [current]) := by
  obtain rfl : current = circle.current := by simpa using shows.starts
  have linked := shows.linked
  simp only [List.cons_append, List.append_assoc, List.isChain_cons_cons] at linked
  obtain ⟨one, two, three, linked⟩ := linked
  rw [List.isChain_cons, List.isChain_split, List.isChain_cons (l := back ++ _)] at linked
  obtain ⟨opens, before, joins, behind⟩ := linked
  rw [move_eq one.after_eq two.after_eq three.after_eq lands]
  have distinct := shows.nodup
  have apart : circle.current ≠ third ∧ circle.current ≠ target ∧ third ≠ target := by grind
  -- The writes go to the ends of the parts of the row, and inside the parts the entries stay.
  have stays : ∀ cup ∈ first :: second :: (front ++ back), ∀ other, circle.Leads cup other →
      (circle.spliced first third target).Leads cup other := by
    intro cup inside other leads
    exact leads_spliced_of_ne (by grind) (by grind) (by grind) leads
  obtain ⟨following, head⟩ : ∃ following, ∀ tail, (front ++ target :: tail).head? = some following :=
    ⟨front.head?.getD target, fun tail => by cases front <;> simp⟩
  have current_opens : (circle.spliced first third target).Leads circle.current following := by
    rw [← (opens following (head _)).after_eq]
    exact leads_spliced_current (shows.lt_size (by simp)) apart.1 apart.2.1
  have third_joins : ∀ cup ∈ (back ++ [circle.current]).head?,
      (circle.spliced first third target).Leads third cup := by
    intro cup head
    rw [← (joins cup head).after_eq]
    exact leads_spliced_third (shows.lt_size (by simp)) apart.2.2
  rw [current_opens.after_eq]
  refine ⟨?_, ?_, ?_⟩
  · simpa using head (first :: second :: third :: (back ++ [circle.current]))
  · have same : (circle.spliced first third target).highest = circle.highest := by
      simp [highest]
    exact perm_splice.trans (same ▸ shows.all)
  · simp only [List.append_assoc, List.cons_append, List.nil_append]
    apply List.isChain_split.mpr
    refine ⟨isChain_concat_imp before fun cup inside => stays cup (by simp [inside]), ?_⟩
    simp only [List.isChain_cons_cons]
    refine ⟨leads_spliced_target (shows.lt_size (by simp)), stays first (by simp) second two,
      stays second (by simp) third three, ?_⟩
    apply List.isChain_cons_split.mpr
    refine ⟨List.isChain_cons.mpr ⟨third_joins, ?_⟩, List.isChain_pair.mpr current_opens⟩
    exact isChain_concat_imp behind fun cup inside => stays cup (by simp [inside])

end Circle

theorem putAfter_append {cups : List Nat} (fresh : target ∉ front) :
    putAfter target cups (front ++ target :: back) = front ++ target :: (cups ++ back) := by
  induction front with
  | nil => simp [putAfter]
  | cons cup rest ih =>
    simp only [List.mem_cons, not_or] at fresh
    simp only [List.cons_append, putAfter, if_neg (Ne.symm fresh.1), ih fresh.2]

/-- The picked cups land where the search of the circle ends. -/
theorem Circle.Shows.landing?_eq {rest : List Nat}
    (shows : circle.Shows (current :: first :: second :: third :: rest)) (enough : 5 ≤ circle.highest) :
    landing? current rest =
      some (circle.destination [first, second, third] (circle.below current)) := by
  obtain ⟨low, high⟩ : 1 ≤ current ∧ current ≤ circle.highest := by
    have range := List.mem_range'_1.mp (shows.all.mem_iff.mp List.mem_cons_self)
    omega
  have three : [first, second, third].length = 3 := rfl
  obtain ⟨steps, few, ends, found⟩ := circle.destination_searchEnds low high three enough
  have all : (current :: [first, second, third] ++ rest).Perm (List.range' 1 circle.highest) :=
    shows.all
  rw [found]
  exact Cups.landing?_eq all ends (by omega)

/-- A circle of five or more cups shows the moved row after a move. -/
theorem Circle.Shows.move_moveRow (shows : circle.Shows row) (enough : 5 ≤ circle.highest) :
    circle.move.Shows (moveRow row) := by
  have size : row.length = circle.highest := by
    simpa using shows.all.length_eq
  match row, shows, size with
  | current :: first :: second :: third :: rest, shows, _ =>
    have lands := shows.landing?_eq enough
    have remains : circle.destination [first, second, third] (circle.below current) ∈ rest := by
      rw [landing?, Option.or_eq_some_iff] at lands
      rcases lands with below | ⟨_, around⟩
      · exact List.mem_of_mem_filter (List.max?_mem below)
      · exact List.max?_mem around
    generalize found : circle.destination [first, second, third] (circle.below current) = target
      at lands remains
    obtain ⟨front, back, rfl, fresh⟩ := List.eq_append_cons_of_mem remains
    rw [moveRow, lands]
    simp only [putAfter_append fresh]
    exact shows.move found
  | [], _, size | [_], _, size | [_, _], _, size | [_, _, _], _, size => simp at size; omega

theorem Circle.highest_move : circle.move.highest = circle.highest := by
  simp [Circle.move, Circle.highest]

/-- A game on the circle and the same game on the row. -/
theorem Circle.Shows.play (shows : circle.Shows row) (enough : 5 ≤ circle.highest) (moves : Nat) :
    (circle.play moves).Shows (moveRow^[moves] row) ∧ (circle.play moves).highest = circle.highest := by
  induction moves generalizing circle row with
  | zero => exact ⟨shows, rfl⟩
  | succ moves ih =>
    rw [Circle.play, Function.iterate_succ_apply, ← circle.highest_move]
    exact ih (shows.move_moveRow enough) (circle.highest_move ▸ enough)

end Moving

section Start

theorem size_foldl_link {links : List (Nat × Nat)} {next : Array Nat} :
    (links.foldl (fun next link => next.setIfInBounds link.1 link.2) next).size = next.size := by
  induction links generalizing next with
  | nil => rfl
  | cons link rest ih => rw [List.foldl_cons, ih, Array.size_setIfInBounds]

theorem getElem?_foldl_link_of_notMem {links : List (Nat × Nat)} {next : Array Nat}
    (fresh : cup ∉ links.map Prod.fst) :
    (links.foldl (fun next link => next.setIfInBounds link.1 link.2) next)[cup]? = next[cup]? := by
  induction links generalizing next with
  | nil => rfl
  | cons link rest ih =>
    simp only [List.map_cons, List.mem_cons, not_or] at fresh
    rw [List.foldl_cons, ih fresh.2, Array.getElem?_setIfInBounds_ne (Ne.symm fresh.1)]

/-- Each of the links of different cups is in the array in the end. -/
theorem getElem?_foldl_link {links : List (Nat × Nat)} {next : Array Nat}
    (distinct : (links.map Prod.fst).Nodup) (listed : (cup, other) ∈ links) (inside : cup < next.size) :
    (links.foldl (fun next link => next.setIfInBounds link.1 link.2) next)[cup]? = some other := by
  induction links generalizing next with
  | nil => simp at listed
  | cons link rest ih =>
    rw [List.map_cons, List.nodup_cons] at distinct
    rw [List.foldl_cons]
    rcases List.mem_cons.mp listed with rfl | later
    · rw [getElem?_foldl_link_of_notMem distinct.1]
      simp [inside]
    · exact ih distinct.2 later (by simpa using inside)

theorem order_perm {labels : List Nat} (permutation : labels.Perm (List.range' 1 labels.length))
    (fits : labels.length ≤ total) : (Circle.order labels total).Perm (List.range' 1 total) := by
  have whole : List.range' 1 labels.length ++ List.range' (labels.length + 1) (total - labels.length) =
      List.range' 1 total := by
    rw [Nat.add_comm labels.length 1, List.range'_append_1, Nat.add_sub_cancel' fits]
  rw [Circle.order, ← whole]
  exact permutation.append_right _

/-- Linking each cup to the next one and the last to the first gives a circle that shows the row. -/
theorem shows_linked {rest : List Nat}
    (all : (first :: rest).Perm (List.range' 1 (first :: rest).length)) :
    Circle.Shows ⟨((first :: rest).zip (rest ++ [first])).foldl
      (fun next link => next.setIfInBounds link.1 link.2)
      (Array.replicate ((first :: rest).length + 1) 0), first⟩ (first :: rest) := by
  have keys : ((first :: rest).zip (rest ++ [first])).map Prod.fst = first :: rest :=
    List.map_fst_zip (by simp)
  refine ⟨rfl, ?_, ?_⟩
  · rwa [Circle.highest, size_foldl_link, Array.size_replicate, Nat.add_sub_cancel]
  · apply List.isChain_cons_append_singleton_iff_forall₂.mpr
    refine List.forall₂_iff_zip.mpr ⟨by simp, fun {cup other} listed => ?_⟩
    have inside := List.mem_range'_1.mp (all.mem_iff.mp (List.of_mem_zip listed).1)
    apply getElem?_foldl_link
    · rw [keys]
      exact all.nodup_iff.mpr List.nodup_range'
    · exact listed
    · rw [Array.size_replicate]
      omega

/-- The first circle shows the labels and all further ones. -/
theorem shows_ofLabels {labels : List Nat} (permutation : labels.Perm (List.range' 1 labels.length))
    (fits : labels.length ≤ total) (positive : 0 < total) :
    (Circle.ofLabels labels total).Shows (Circle.order labels total) := by
  have all := order_perm permutation fits
  have size : (Circle.order labels total).length = total := by simpa using all.length_eq
  rw [Circle.ofLabels]
  split
  · rename_i empty
    rw [empty] at size
    exact absurd size positive.ne
  · rename_i first rest split
    rw [split] at all size ⊢
    exact shows_linked (size ▸ all)

end Start

end PuzzleCalendar.Cups
