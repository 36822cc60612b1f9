import PuzzleCalendar.Proofs.Arithmetic.Scan
import PuzzleCalendar.Proofs.Jigsaw.Stitching
import PuzzleCalendar.Proofs.Parsing.Faults
import PuzzleCalendar.Proofs.Seating.Table
import PuzzleCalendar.Puzzles.Questionnaire

/-! # Readers that stay within bounds

Some readers shift a bit into a word, cut a text between two bytes, or look into a table. Each of them
has made sure before that the bit, the bytes or the place is there.
-/

namespace PuzzleCalendar

namespace Questionnaire

theorem addAnswers_ne_fault (person text : Text) (answers : Answers) :
    addAnswers person answers text ≠ Outcome.fault := by
  induction text generalizing answers with
  | nil => exact Outcome.ok_ne_fault
  | cons char rest ih =>
    rw [addAnswers]
    split
    · rename_i named
      rw [ofLetter?_eq_some named]
      exact ih _
    · exact Outcome.report_ne_fault

/-- Every letter has its bit in the word. -/
theorem parse_ne_fault (text : Text) : parse text ≠ Outcome.fault := by
  intro fault
  refine not_faultsIn (fun group => ?_) (mapM_eq_fault_iff.mp fault)
  intro fault
  exact not_faultsIn (fun person => addAnswers_ne_fault person person 0) (mapM_eq_fault_iff.mp fault)

end Questionnaire

namespace Arithmetic

/-- Every number is cut out between two characters. -/
theorem parse_ne_fault (text : Text) : parse text ≠ Outcome.fault := by
  intro fault
  refine not_faultsIn (fun line fault => ?_) (Input.readFallibleLines_eq_fault_iff.mp fault)
  exact tokenize_ne_fault line (Outcome.mapReport_eq_fault_iff.mp fault)

end Arithmetic

namespace Seating

/-- Every seat and every place in sight has its row and column in the table. -/
theorem parse_ne_fault (text : Text) : parse text ≠ Outcome.fault := by
  rw [parse_eq]
  exact Outcome.ofExcept_ne_fault

end Seating

namespace Jigsaw

/-- Every tile has a first and a last row. -/
theorem parse_ne_fault (text : Text) : parse text ≠ Outcome.fault := by
  refine bind_ne_fault Outcome.ofExcept_ne_fault fun tiles read => ?_
  cases tiles with
  | nil => exact Outcome.report_ne_fault
  | cons first rest =>
    have large := le_length_of_mapM_readTile (Outcome.ofExcept_eq_ok_iff.mp read)
    refine bind_ne_fault Outcome.orReport_ne_fault fun tiles _ => ?_
    rw [Box.ofTiles?_eq_some (by omega)]
    exact Outcome.ok_ne_fault

end Jigsaw

end PuzzleCalendar
