import Zmanim.Formula.Reading
import Zmanim.Proofs.Formula.Form
/-! Reading against the grammar. -/

namespace Zmanim
open Text

namespace Formula

variable {text : List Char} {formula : Formula}

/-- A formula is written by a trimmed text that a form takes whole. -/
theorem written_of_read? {form : Form} (trimmed : Trimmed text)
    (read : form.read? text = some formula) : formula.Written text := by
  obtain ⟨parts, spelled, spread⟩ := Form.spread_of_reader (Form.read?_eq_some_iff.mp read)
  exact ⟨parts, spelled, spread.laid spelled.ne_nil trimmed⟩

/-- The order in which forms are tried does not matter. -/
theorem ofTrimmed?_eq_some_of_read? {form : Form} (read : form.read? text = some formula) :
    ofTrimmed? text = some formula := by
  cases found : ofTrimmed? text with
  | none =>
      have stopped := List.findSome?_eq_none_iff.mp found form form.mem_all
      rw [stopped] at read
      exact absurd read (by simp)
  | some first =>
      obtain ⟨other, -, taken⟩ := List.exists_of_findSome?_eq_some found
      have same : other = form :=
        Form.unique_of_reader (Form.read?_eq_some_iff.mp taken) (Form.read?_eq_some_iff.mp read)
      rw [← taken, same, read]

theorem ofTrimmed?_eq_some_iff_written (trimmed : Trimmed text) :
    ofTrimmed? text = some formula ↔ formula.Written text := by
  constructor
  · intro found
    obtain ⟨form, -, read⟩ := List.exists_of_findSome?_eq_some found
    exact written_of_read? trimmed read
  · intro written
    obtain ⟨form, read⟩ := Form.exists_reader_of_written written
    exact ofTrimmed?_eq_some_of_read? (Form.read?_eq_some_iff.mpr read)

/-- A blank text is not a formula, and otherwise the trimmed text decides. -/
theorem read_eq_ok_iff {source : String} :
    Formula.read source = .ok formula ↔ ofTrimmed? (trim source.toList) = some formula := by
  unfold Formula.read
  split
  · rename_i blank
    rw [blank]
    constructor
    · intro read
      exact absurd read (by simp)
    · intro found
      have written := (ofTrimmed?_eq_some_iff_written ⟨stops_nil, stops_nil⟩).mp found
      exact absurd rfl written.ne_nil
  · rename_i first rest shape
    rw [shape]
    split
    · rename_i found
      simp [found]
    · rename_i none
      simp [none]

/-- A blank text is rejected as such. -/
theorem read_of_blank {source : String} (blank : Run isBlank source.toList) :
    Formula.read source = .error .empty := by
  rw [Formula.read, trim_eq_nil_iff.mpr blank]

/-- Any other text is rejected when no form takes the trimmed text. -/
theorem read_eq_error_iff {source : String} {rejection : Rejection}
    (solid : ¬ Run isBlank source.toList) :
    Formula.read source = .error rejection ↔
      ofTrimmed? (trim source.toList) = none ∧
        rejection = Rejection.ofTrimmed (trim source.toList) := by
  unfold Formula.read
  split
  · rename_i none
    exact absurd (trim_eq_nil_iff.mp none) solid
  · rename_i first rest shape
    rw [shape]
    split
    · rename_i found
      simp [found]
    · rename_i none
      simp [none, eq_comm]

/-- A text is read as a formula exactly when its trimmed form writes the formula. -/
theorem read_eq_ok_iff_written (source : String) (formula : Formula) :
    Formula.read source = .ok formula ↔ formula.Written (trim source.toList) :=
  read_eq_ok_iff.trans (ofTrimmed?_eq_some_iff_written (trimmed_trim source.toList))

/-- Gaps around the sign and zeros before the minutes do not matter. -/
example : Formula.read " @dawn +\t007min\n" = .ok (.offset "dawn" .after 7) := rfl

end Formula

end Zmanim
