import PuzzleCalendar.Proofs.Lines.Trimmed

/-! # Blocks of lines

Lines are gathered until a blank one, or the end of the text, closes their block. What has been gathered
after some lines is exactly those of them that are not blank, in order. Two lines that follow each other
stand in one block when no blank line comes between them, and blocks that are written with a blank line
between any two are read back.
-/

namespace PuzzleCalendar.Input

open Text

/-- Groups neighbouring lines that are not empty. -/
def group : List Text → List (List Text)
  | [] => []
  | line :: rest =>
    if line.isEmpty then group rest
    else
      match rest.head?, group rest with
      | some (_ :: _), block :: blocks => (line :: block) :: blocks
      | _, blocks => [line] :: blocks

/-- Two lines stand next to each other in a block. The lines of all blocks before them are `earlier`. -/
def Together (blocks : List (List Text)) (earlier : List Text) (first second : Text) : Prop :=
  ∃ before head tail after, blocks = before ++ (head ++ first :: second :: tail) :: after ∧
    before.flatten ++ head = earlier

/-- The text of some blocks: each line on a line of its own and a blank line between two blocks. -/
def unite (blocks : List (List Text)) : Text :=
  ['\n', '\n'].intercalate (blocks.map (['\n'].intercalate ·))

section Group

variable {block : List Text} {line : Text}

/-- The first block starts with the first line that is not blank. -/
theorem group_eq (lines : List Text) : group lines =
    match lines.dropWhile List.isEmpty with
    | [] => []
    | line :: rest =>
      (line :: rest).takeWhile (!·.isEmpty) :: group ((line :: rest).dropWhile (!·.isEmpty)) := by
  induction lines with
  | nil => rfl
  | cons line rest ih =>
    cases line with
    | nil => rw [group, ih]; rfl
    | cons char line =>
      cases rest with
      | nil => rfl
      | cons next rest =>
        cases next with
        | nil => simp [group]
        | cons other next =>
          rw [group, ih]
          simp

theorem group_concat_blank (lines : List Text) : group (lines ++ [[]]) = group lines := by
  induction lines with
  | nil => rfl
  | cons line lines ih =>
    rw [List.cons_append, group, group, ih]
    cases lines with
    | nil => cases line <;> rfl
    | cons next lines => rfl

theorem group_cons_blank (lines : List Text) : group ([] :: lines) = group lines := by
  simp [group]

theorem not_isEmpty_of_mem (filled : [] ∉ block) (member : line ∈ block) : (!line.isEmpty) = true := by
  cases line with
  | nil => contradiction
  | cons char line => rfl

/-- The first block takes all lines that are not blank up to the next one that is. -/
theorem group_append (filled : [] ∉ block) (some : block ≠ []) (lines : List Text) :
    group (block ++ lines) =
      (block ++ lines.takeWhile (!·.isEmpty)) :: group (lines.dropWhile (!·.isEmpty)) := by
  have passes : ∀ line ∈ block, (!line.isEmpty) = true := fun _ => not_isEmpty_of_mem filled
  have starts : (block ++ lines).dropWhile List.isEmpty = block ++ lines := by
    cases block with
    | nil => contradiction
    | cons line block => exact List.dropWhile_cons_of_neg (by simpa using passes line List.mem_cons_self)
  rw [group_eq, starts]
  split
  · simp_all
  · rename_i line rest same
    rw [← same, List.takeWhile_append_of_pos passes, List.dropWhile_append_of_pos passes]

theorem group_of_filled (filled : [] ∉ block) (some : block ≠ []) : group block = [block] := by
  simpa [group] using group_append filled some []

theorem group_append_blank (filled : [] ∉ block) (some : block ≠ []) (lines : List Text) :
    group (block ++ [] :: lines) = block :: group lines := by
  simpa [group_cons_blank] using group_append filled some ([] :: lines)

end Group

namespace Grouping

/-- No line is blank and no block that has ended is empty. -/
structure Filled (grouping : Grouping) : Prop where
  ended : ∀ block ∈ grouping.ended, block ≠ [] ∧ [] ∉ block
  current : [] ∉ grouping.current

variable {grouping : Grouping}

theorem filled_empty : Filled ⟨[], []⟩ :=
  ⟨List.forall_mem_nil _, List.not_mem_nil⟩

/-- What a line does: a blank one ends the current block or is passed over, and any other one joins it. -/
theorem add_cases (grouping : Grouping) (line : Text) :
    (line = [] ∧ grouping.current = [] ∧ grouping.add line = grouping) ∨
    (line = [] ∧ grouping.current ≠ [] ∧ grouping.add line = ⟨grouping.ended ++ [grouping.current], []⟩) ∨
    (line ≠ [] ∧ grouping.add line = ⟨grouping.ended, grouping.current ++ [line]⟩) := by
  unfold add
  cases line with
  | nil => cases grouping.current <;> simp
  | cons char line => simp

theorem Filled.add (filled : grouping.Filled) (line : Text) : (grouping.add line).Filled := by
  obtain ⟨-, -, same⟩ | ⟨-, some, same⟩ | ⟨solid, same⟩ := grouping.add_cases line
  · rwa [same]
  · rw [same]
    refine ⟨?_, List.not_mem_nil⟩
    intro block listed
    obtain listed | listed := List.mem_append.mp listed
    · exact filled.ended block listed
    · rw [List.mem_singleton.mp listed]
      exact ⟨some, filled.current⟩
  · rw [same]
    refine ⟨filled.ended, ?_⟩
    rw [List.mem_append, not_or]
    exact ⟨filled.current, by simpa using solid.symm⟩

theorem Filled.foldl_add (filled : grouping.Filled) (lines : List Text) :
    (lines.foldl Grouping.add grouping).Filled := by
  induction lines generalizing grouping with
  | nil => exact filled
  | cons line lines ih => exact ih (filled.add line)

theorem flatten_add (grouping : Grouping) (line : Text) :
    (grouping.add line).ended.flatten ++ (grouping.add line).current =
      grouping.ended.flatten ++ grouping.current ++ [line].filter (!·.isEmpty) := by
  obtain ⟨rfl, -, same⟩ | ⟨rfl, -, same⟩ | ⟨solid, same⟩ := grouping.add_cases line
  · simp [same]
  · simp [same]
  · have kept : [line].filter (!·.isEmpty) = [line] := by simpa using solid
    rw [same, kept, List.append_assoc]

/-- Lines are gathered without a loss and in order. -/
theorem flatten_foldl_add (grouping : Grouping) (lines : List Text) :
    (lines.foldl add grouping).ended.flatten ++ (lines.foldl add grouping).current =
      grouping.ended.flatten ++ grouping.current ++ lines.filter (!·.isEmpty) := by
  induction lines generalizing grouping with
  | nil => rw [List.foldl_nil, List.filter_nil, List.append_nil]
  | cons line lines ih =>
    rw [List.foldl_cons, ih, flatten_add, List.append_assoc, ← List.filter_append, List.singleton_append]

/-- The blocks to come are those of the current lines and the lines to come. -/
theorem close_foldl_add (filled : grouping.Filled) (lines : List Text) :
    (lines.foldl add grouping).close = grouping.ended ++ group (grouping.current ++ lines) := by
  induction lines generalizing grouping with
  | nil =>
    rw [List.foldl_nil, List.append_nil, close]
    split
    · rename_i none
      rw [List.isEmpty_iff.mp none, group, List.append_nil]
    · rename_i some
      rw [group_of_filled filled.current (by simpa using some)]
  | cons line lines ih =>
    rw [List.foldl_cons, ih (filled.add line)]
    obtain ⟨rfl, none, same⟩ | ⟨rfl, some, same⟩ | ⟨-, same⟩ := grouping.add_cases line
    · rw [same, none, List.nil_append, List.nil_append, group_cons_blank]
    · rw [same, group_append_blank filled.current some, List.append_assoc, List.singleton_append,
        List.nil_append]
    · rw [same, List.append_assoc, List.singleton_append]

theorem flatten_close (grouping : Grouping) :
    grouping.close.flatten = grouping.ended.flatten ++ grouping.current := by
  unfold close
  cases grouping.current <;> simp

theorem Filled.close (filled : grouping.Filled) : ∀ block ∈ grouping.close, block ≠ [] ∧ [] ∉ block := by
  unfold Grouping.close
  split
  · exact filled.ended
  · rename_i some
    intro block listed
    obtain listed | listed := List.mem_append.mp listed
    · exact filled.ended block listed
    · rw [List.mem_singleton.mp listed]
      exact ⟨by simpa using some, filled.current⟩

end Grouping

/-- A blank line at the end ends no block. -/
theorem blocks_eq (text : Text) : blocks text = group (trimmedLines text) := by
  have gathered := Grouping.close_foldl_add Grouping.filled_empty ((lines text).map trim)
  rw [List.nil_append, List.nil_append] at gathered
  rw [blocks, gathered]
  obtain same | same := trimmedLines_eq text
  · rw [same]
  · rw [same, group_concat_blank]

theorem blocks_eq_close (text : Text) :
    blocks text = ((trimmedLines text).foldl Grouping.add ⟨[], []⟩).close := by
  rw [blocks_eq, Grouping.close_foldl_add Grouping.filled_empty, List.nil_append, List.nil_append]

theorem ne_nil_of_mem_blocks {text : Text} {block : List Text} (listed : block ∈ blocks text) : block ≠ [] := by
  rw [blocks_eq_close] at listed
  exact ((Grouping.filled_empty.foldl_add _).close block listed).1

/-- The blocks once some lines have been gathered. -/
theorem blocks_eq_append {text : Text} {above below : List Text}
    (whole : trimmedLines text = above ++ below) : ∃ grouping : Grouping, grouping.Filled ∧
      grouping.ended.flatten ++ grouping.current = above.filter (!·.isEmpty) ∧
      blocks text = grouping.ended ++ group (grouping.current ++ below) := by
  have filled := Grouping.filled_empty.foldl_add above
  refine ⟨_, filled, Grouping.flatten_foldl_add ⟨[], []⟩ above, ?_⟩
  rw [blocks_eq_close, whole, List.foldl_append, Grouping.close_foldl_add filled]

theorem ne_flatten_append (head tail start : List Text) (line : Text) (blocks : List (List Text)) :
    head ≠ ((head ++ line :: tail) :: blocks).flatten ++ start := by
  intro same
  have lengths := congrArg List.length same
  simp only [List.flatten_cons, List.length_append, List.length_cons] at lengths
  omega

/-- A place in some blocks is told by what comes before it. -/
theorem place_unique {blocks before others after rest : List (List Text)} {head start tail stop : List Text}
    {first second : Text} (one : blocks = before ++ (head ++ first :: tail) :: after)
    (two : blocks = others ++ (start ++ second :: stop) :: rest)
    (same : before.flatten ++ head = others.flatten ++ start) : before = others ∧ head = start := by
  subst one
  induction before generalizing others with
  | nil =>
    cases others with
    | nil => exact ⟨rfl, same⟩
    | cons block others =>
      obtain ⟨rfl, -⟩ := List.cons_eq_cons.mp two
      exact absurd same (ne_flatten_append _ _ _ _ _)
  | cons block before ih =>
    cases others with
    | nil =>
      obtain ⟨rfl, -⟩ := List.cons_eq_cons.mp two
      exact absurd same.symm (ne_flatten_append _ _ _ _ _)
    | cons other others =>
      obtain ⟨rfl, later⟩ := List.cons_eq_cons.mp two
      rw [List.flatten_cons, List.flatten_cons, List.append_assoc, List.append_assoc] at same
      obtain ⟨rfl, rfl⟩ := ih (List.append_cancel_left same) later
      exact ⟨rfl, rfl⟩

/-- Two lines that follow each other stand in one block unless a blank line comes between them. -/
theorem together_iff {text first second : Text} {above between below : List Text}
    (whole : trimmedLines text = above ++ first :: (between ++ second :: below))
    (filled : first ≠ [] ∧ second ≠ []) (blank : ∀ line ∈ between, line = []) :
    Together (blocks text) (above.filter (!·.isEmpty)) first second ↔ between = [] := by
  obtain ⟨grouping, sound, gathered, same⟩ := blocks_eq_append whole
  have joined {more : List Text} (solid : [] ∉ more) : [] ∉ grouping.current ++ more :=
    fun member => (List.mem_append.mp member).elim sound.current solid
  cases between with
  | nil =>
    refine iff_of_true ⟨grouping.ended, grouping.current, below.takeWhile (!·.isEmpty),
      group (below.dropWhile (!·.isEmpty)), ?_, gathered⟩ rfl
    have split : grouping.current ++ first :: ([] ++ second :: below) =
        (grouping.current ++ [first, second]) ++ below := by simp
    rw [same, split, group_append (joined (by simpa using filled)) (by simp)]
    simp
  | cons line between =>
    obtain rfl := blank line List.mem_cons_self
    refine iff_of_false ?_ (List.cons_ne_nil _ _)
    rintro ⟨before, head, tail, after, one, earlier⟩
    have split : grouping.current ++ first :: ([] :: between ++ second :: below) =
        (grouping.current ++ [first]) ++ [] :: (between ++ second :: below) := by simp
    rw [split, group_append_blank (joined (by simpa using filled.1)) (by simp)] at same
    obtain ⟨rfl, rfl⟩ := place_unique one same (earlier.trans gathered.symm)
    rw [one] at same
    simp at same

theorem trimmedLines_intercalate {block : List Text} (some : block ≠ [])
    (plain : ∀ line ∈ block, '\n' ∉ line ∧ trim line = line) :
    trimmedLines (['\n'].intercalate block) = block := by
  rw [trimmedLines, splitAll_eq_splitOn,
    List.splitOn_intercalate '\n' (fun line listed => (plain line listed).1) some]
  exact (List.map_congr_left fun line listed => (plain line listed).2).trans (List.map_id block)

/-- Blocks are read back from the text of them. -/
theorem blocks_unite {groups : List (List Text)} (filled : ∀ block ∈ groups, block ≠ [] ∧ [] ∉ block)
    (plain : ∀ block ∈ groups, ∀ line ∈ block, '\n' ∉ line ∧ trim line = line) :
    blocks (unite groups) = groups := by
  rw [blocks_eq]
  induction groups with
  | nil => rfl
  | cons block groups ih =>
    obtain ⟨⟨some, solid⟩, later⟩ := List.forall_mem_cons.mp filled
    obtain ⟨first, rest⟩ := List.forall_mem_cons.mp plain
    have read := trimmedLines_intercalate some first
    cases groups with
    | nil =>
      rw [unite, List.map_singleton, List.intercalate_singleton, read, group_of_filled solid some]
    | cons next groups =>
      have cut : unite (block :: next :: groups) =
          ['\n'].intercalate block ++ '\n' :: ([] ++ '\n' :: unite (next :: groups)) := by
        simp [unite, List.intercalate_cons_cons]
      have blank : trimmedLines [] = [[]] := rfl
      rw [cut, trimmedLines_append_newline, trimmedLines_append_newline, read, blank,
        List.singleton_append, group_append_blank solid some, ih later rest]

/-- Blocks hold the lines of a text that are not blank, all of them and in order. No block is empty, two
lines that follow each other stand in one block when no blank line comes between them, and the text of
the blocks, with one blank line between any two, has the same blocks. -/
theorem blocks_lose_nothing (text : Text) :
    (blocks text).flatten = (trimmedLines text).filter (!·.isEmpty) ∧
    (∀ block ∈ blocks text, block ≠ [] ∧ ∀ line ∈ block, line ≠ [] ∧ trim line = line) ∧
    (∀ above first between second below,
      trimmedLines text = above ++ first :: (between ++ second :: below) →
      first ≠ [] → second ≠ [] → (∀ line ∈ between, line = []) →
      (Together (blocks text) (above.filter (!·.isEmpty)) first second ↔ between = [])) ∧
    blocks (unite (blocks text)) = blocks text := by
  have filled := (Grouping.filled_empty.foldl_add (trimmedLines text)).close
  have gathered := Grouping.flatten_foldl_add ⟨[], []⟩ (trimmedLines text)
  rw [← blocks_eq_close] at filled
  rw [← Grouping.flatten_close, ← blocks_eq_close] at gathered
  have source {block : List Text} {line : Text} (listed : block ∈ blocks text) (member : line ∈ block) :
      line ∈ trimmedLines text := by
    have grouped := List.mem_flatten.mpr ⟨block, listed, member⟩
    rw [gathered] at grouped
    exact List.mem_of_mem_filter grouped
  refine ⟨gathered, ?_, ?_, ?_⟩
  · intro block listed
    refine ⟨(filled block listed).1, fun line member => ⟨?_, ?_⟩⟩
    · exact fun blank => (filled block listed).2 (blank ▸ member)
    · exact trim_of_mem_trimmedLines (source listed member)
  · intro above first between second below whole here there blank
    exact together_iff whole ⟨here, there⟩ blank
  · apply blocks_unite filled
    intro block listed line member
    have origin := source listed member
    exact ⟨newline_notMem_of_mem_trimmedLines origin, trim_of_mem_trimmedLines origin⟩

theorem blocks_lose_nothing_parted :
    trimmedLines "\n a\nb\r\n \t\nc".toList =
      [[], "a".toList] ++ "b".toList :: ([[]] ++ "c".toList :: []) ∧
    ¬ Together (blocks "\n a\nb\r\n \t\nc".toList) ["a".toList] "b".toList "c".toList := by
  have whole : trimmedLines "\n a\nb\r\n \t\nc".toList =
      [[], "a".toList] ++ "b".toList :: ([[]] ++ "c".toList :: []) := by decide +kernel
  have parted := (blocks_lose_nothing "\n a\nb\r\n \t\nc".toList).2.2.1 [[], "a".toList] "b".toList [[]]
    "c".toList [] whole (by decide) (by decide) (by simp)
  exact ⟨whole, fun together => absurd (parted.mp together) (by decide)⟩

end PuzzleCalendar.Input
