import Mathlib.Data.Set.Card
import PuzzleCalendar.Proofs.Lines.Rectangle
import PuzzleCalendar.Puzzles.Forest

/-! # Slopes through a forest

A map is read from a rectangle, so that every row has a column to come back to when a slope has left it
on the right. A slope that goes down meets the map at every multiple of its step, and trees are counted
there for as long as 64 bits hold the column.
-/

namespace PuzzleCalendar.Forest

open Text

/-- A tree stands at a place of the map that repeats to the right: its column is one of the row behind some
copies of the whole row. -/
def HasTree (trees : List (List Bool)) (down right : Nat) : Prop :=
  ∃ row copies column, trees[down]? = some row ∧ right = copies * row.length + column ∧
    row[column]? = some true

variable {α : Type} {trees : List (List Bool)} {row : List Bool} {slope : Slope} {step down right : Nat}

theorem getElem?_everyNth (positive : 0 < step) (list : List α) (place : Nat) :
    (everyNth step list)[place]? = list[place * step]? := by
  fun_induction everyNth step list generalizing place with
  | case1 => rfl
  | case2 first rest ih =>
    cases place with
    | zero => simp
    | succ place =>
      have later : (place + 1) * step = step - 1 + place * step + 1 := by
        rw [Nat.succ_mul]
        omega
      rw [List.getElem?_cons_succ, ih, List.getElem?_drop, later, List.getElem?_cons_succ]

theorem exists_treeAt? (wide : 0 < row.length) (column : Nat) : ∃ tree, treeAt? row column = some tree := by
  have within := Nat.mod_lt column wide
  have filled : row.isEmpty = false := by
    rw [List.isEmpty_eq_false_iff, ← List.length_pos_iff]
    exact wide
  rw [treeAt?, filled]
  exact ⟨_, List.getElem?_eq_getElem within⟩

/-- Whole copies of a row lead to the column of a tree. -/
theorem treeAt?_eq_true_iff {column : Nat} : treeAt? row column = some true ↔
    ∃ copies offset, column = copies * row.length + offset ∧ row[offset]? = some true := by
  rw [treeAt?]
  constructor
  · intro found
    split at found
    · contradiction
    · exact ⟨column / row.length, column % row.length, (Nat.div_add_mod' _ _).symm, found⟩
  · rintro ⟨copies, offset, rfl, found⟩
    obtain ⟨within, -⟩ := List.getElem?_eq_some_iff.mp found
    have filled : row.isEmpty = false := by
      rw [List.isEmpty_eq_false_iff, ← List.length_pos_iff]
      exact Nat.zero_lt_of_lt within
    have column : (copies * row.length + offset) % row.length = offset := by
      rw [Nat.mul_add_mod_self_right, Nat.mod_eq_of_lt within]
    rw [filled, column]
    exact found

theorem hasTree_iff : HasTree trees down right ↔
    ∃ row, trees[down]? = some row ∧ treeAt? row right = some true := by
  simp only [HasTree, treeAt?_eq_true_iff]
  constructor
  · rintro ⟨row, copies, column, listed, place, tree⟩
    exact ⟨row, listed, copies, column, place, tree⟩
  · rintro ⟨row, listed, copies, column, place, tree⟩
    exact ⟨row, copies, column, listed, place, tree⟩

/-- The places of a list with a property are as many as its members with it. -/
theorem ncard_places (test : α → Bool) (list : List α) :
    {place : Nat | ∃ item, list[place]? = some item ∧ test item = true}.ncard = list.countP test := by
  have places : {place : Nat | ∃ item, list[place]? = some item ∧ test item = true} =
      ((list.findIdxs test).toFinset : Set Nat) := by
    ext place
    rw [List.coe_toFinset, Set.mem_ofPred_eq, Set.mem_ofPred_eq, List.mem_findIdxs_iff_exists_getElem_pos]
    constructor
    · rintro ⟨item, listed, passes⟩
      obtain ⟨within, rfl⟩ := List.getElem?_eq_some_iff.mp listed
      exact ⟨within, passes⟩
    · rintro ⟨within, passes⟩
      exact ⟨_, List.getElem?_eq_getElem within, passes⟩
  rw [places, Set.ncard_coe_finset, List.toFinset_card_of_nodup List.nodup_findIdxs, List.length_findIdxs]

/-- No step of a slope faults when all rows have columns and 64 bits hold the columns met. -/
theorem treesOnSlope?_eq_countP (wide : ∀ row ∈ trees, 0 < row.length) (falls : 0 < slope.down)
    (held : ∀ step, step * slope.down < trees.length → step * slope.right < 2 ^ 64) :
    treesOnSlope? trees slope = some ((everyNth slope.down trees).zipIdx.countP fun item =>
      (treeAt? item.1 (item.2 * slope.right)).getD false) := by
  have each : ∀ item ∈ (everyNth slope.down trees).zipIdx,
      (do treeAt? item.1 (← Number.word64? (item.2 * slope.right))) =
        some ((treeAt? item.1 (item.2 * slope.right)).getD false) := by
    rintro ⟨row, step⟩ listed
    rw [List.mk_mem_zipIdx_iff_getElem?, getElem?_everyNth falls] at listed
    obtain ⟨within, -⟩ := List.getElem?_eq_some_iff.mp listed
    obtain ⟨tree, found⟩ :=
      exists_treeAt? (wide row (List.mem_of_getElem? listed)) (step * slope.right)
    have word : Number.word64? (step * slope.right) = some (step * slope.right) :=
      Number.word64?_eq_some_iff.mpr ⟨rfl, held step within⟩
    simp [word, found]
  rw [treesOnSlope?, if_neg (Nat.ne_of_gt falls), mapM_eq_some_map each, Option.bind_eq_bind,
    Option.bind_some, List.count, List.countP_map]
  simp [Function.comp_def]

/-- A step of a slope meets a tree of the map as it repeats to the right. -/
theorem exists_met_iff (falls : 0 < slope.down) :
    (∃ item, (everyNth slope.down trees).zipIdx[step]? = some item ∧
        (treeAt? item.1 (item.2 * slope.right)).getD false = true) ↔
      step * slope.down < trees.length ∧ HasTree trees (step * slope.down) (step * slope.right) := by
  rw [hasTree_iff, List.getElem?_zipIdx, getElem?_everyNth falls, Nat.zero_add]
  constructor
  · rintro ⟨_, listed, tree⟩
    obtain ⟨row, found, rfl⟩ := Option.map_eq_some_iff.mp listed
    have tree : treeAt? row (step * slope.right) = some true := by
      cases met : treeAt? row (step * slope.right) <;> simp_all
    exact ⟨(List.getElem?_eq_some_iff.mp found).1, row, found, tree⟩
  · rintro ⟨-, row, found, tree⟩
    exact ⟨(row, step), by rw [found, Option.map_some], by simp [tree]⟩

theorem treesOnSlope?_eq (wide : ∀ row ∈ trees, 0 < row.length) (falls : 0 < slope.down)
    (held : ∀ step, step * slope.down < trees.length → step * slope.right < 2 ^ 64) :
    treesOnSlope? trees slope = some {step | step * slope.down < trees.length ∧
      HasTree trees (step * slope.down) (step * slope.right)}.ncard := by
  rw [treesOnSlope?_eq_countP wide falls held, ← ncard_places]
  apply congrArg (fun places => some (Set.ncard places))
  exact Set.ext fun step => exists_met_iff falls

/-- A map is read from the rows that a text draws, when these are a rectangle of cells. -/
theorem parse_eq_ok_iff {text : Text} : parse text = .ok trees ↔
    (∃ width, Input.Rectangle (Input.drawnRows text) width) ∧
      (Input.drawnRows text).map (List.map cell?) = trees.map (List.map some) := by
  have drawn : Input.cellGrid "map cell" cell? text = .ok trees ↔ _ := Input.cellGrid_eq_ok_iff
  rw [← drawn, parse]
  cases Input.cellGrid "map cell" cell? text with
  | ok cells => simp [Outcome.ofExcept]
  | error error => simp [Outcome.ofExcept, Outcome.report]

/-- A text is read as a grid exactly when its trimmed lines draw a rectangle with a row and a column.
Otherwise it is blank, or the error names the first row whose width is not that of the first one. So every
map that is read is a rectangle, and a slope that goes down has a count on it when 64 bits hold its columns:
the number of steps that meet a tree of the map as it repeats to the right. -/
theorem slopes_counted_on_rectangles (text : Text) :
    (∀ rows, Input.grid text = .ok rows ↔
      rows = Input.drawnRows text ∧ ∃ width, Input.Rectangle rows width) ∧
    (∀ error, Input.grid text = .error error ↔
      ((∀ char ∈ text, isBlank char = true) ∧ error = .missingData "empty grid") ∨
      ∃ above row width, Input.FirstRagged (Input.drawnRows text) above row width ∧
        error = .invalidLine (above.length + 1) s!"expected {width} columns, found {row.length}") ∧
    ∀ trees, parse text = .ok trees →
      (Input.drawnRows text).map (List.map cell?) = trees.map (List.map some) ∧
      (∃ width, Input.Rectangle trees width) ∧
      ∀ slope, 0 < slope.down →
        (∀ step, step * slope.down < trees.length → step * slope.right < 2 ^ 64) →
        treesOnSlope? trees slope = some {step | step * slope.down < trees.length ∧
          HasTree trees (step * slope.down) (step * slope.right)}.ncard := by
  refine ⟨fun _ => Input.grid_eq_ok_iff, fun _ => Input.grid_eq_error_iff, fun trees read => ?_⟩
  obtain ⟨⟨width, drawn⟩, cells⟩ := parse_eq_ok_iff.mp read
  have rectangle := drawn.of_map cells
  refine ⟨cells, ⟨width, rectangle⟩, fun slope falls held => ?_⟩
  apply treesOnSlope?_eq _ falls held
  intro row listed
  rw [rectangle.even row listed]
  exact rectangle.wide

theorem slopes_counted_on_two_rows :
    parse "\n #.\r\n.# \n".toList = .ok [[true, false], [false, true]] ∧
    treesOnSlope? [[true, false], [false, true]] ⟨3, 1⟩ =
      some {step | step * 1 < 2 ∧ HasTree [[true, false], [false, true]] (step * 1) (step * 3)}.ncard := by
  have read : parse "\n #.\r\n.# \n".toList = .ok [[true, false], [false, true]] := by decide +kernel
  refine ⟨read, (slopes_counted_on_rectangles _).2.2 _ read |>.2.2 ⟨3, 1⟩ Nat.one_pos ?_⟩
  intro step within
  simp only [List.length_cons, List.length_nil] at within ⊢
  omega

end PuzzleCalendar.Forest
