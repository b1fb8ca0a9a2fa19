import Zmanim.Proofs.Text.Run
/-! Trimmed texts. -/

namespace Zmanim.Text

/-- A trimmed text has no blank at either end. -/
structure Trimmed (text : List Char) : Prop where
  first : Stops isBlank text
  last : Stops isBlank text.reverse

/-- A gap is blank, so what does not begin with a blank does not begin with a gap. -/
theorem Stops.isGap_of_isBlank {text : List Char} (stops : Stops isBlank text) :
    Stops isGap text := by
  intro character first
  cases gap : isGap character with
  | false => rfl
  | true => exact absurd ((isBlank_of_isGap gap).symm.trans (stops character first)) (by decide)

theorem Run.isBlank_of_isGap {text : List Char} (blank : Run isGap text) : Run isBlank text :=
  blank.mono fun _ => Text.isBlank_of_isGap

/-- The blanks at the end are trimmed after those at the beginning. -/
theorem exists_trim_append (text : List Char) :
    ∃ after, Run isBlank after ∧ text.dropWhile isBlank = trim text ++ after := by
  let rest := text.dropWhile isBlank
  refine ⟨(rest.reverse.takeWhile isBlank).reverse, ?_, ?_⟩
  · exact (run_takeWhile rest.reverse).reverse
  · rw [trim, ← List.reverse_append, List.takeWhile_append_dropWhile, List.reverse_reverse]

/-- The blanks that trimming takes from the beginning of a text. -/
def leading (text : List Char) : List Char := text.takeWhile isBlank

theorem run_leading (text : List Char) : Run isBlank (leading text) := run_takeWhile text

/-- A trimmed text stands between its leading blanks and others. -/
theorem exists_leading_append (text : List Char) :
    ∃ after, Run isBlank after ∧ text = leading text ++ (trim text ++ after) := by
  obtain ⟨after, blank, rest⟩ := exists_trim_append text
  refine ⟨after, blank, ?_⟩
  rw [← rest, leading, List.takeWhile_append_dropWhile]

/-- Only blanks are trimmed. -/
theorem exists_trim (text : List Char) :
    ∃ before after, Run isBlank before ∧ Run isBlank after ∧
      text = before ++ (trim text ++ after) := by
  obtain ⟨after, blank, whole⟩ := exists_leading_append text
  exact ⟨leading text, after, run_leading text, blank, whole⟩

/-- All blanks at the ends are trimmed. -/
theorem trimmed_trim (text : List Char) : Trimmed (trim text) := by
  constructor
  · obtain ⟨after, -, rest⟩ := exists_trim_append text
    have start : Stops isBlank (trim text ++ after) := rest ▸ stops_dropWhile text
    exact start.of_append
  · rw [trim, List.reverse_reverse]
    exact stops_dropWhile _

/-- Nothing is left of a text exactly when it has blanks alone. -/
theorem trim_eq_nil_iff {text : List Char} : trim text = [] ↔ Run isBlank text := by
  constructor
  · intro none
    obtain ⟨before, after, front, back, shape⟩ := exists_trim text
    rw [shape, none]
    exact run_append.mpr ⟨front, run_append.mpr ⟨run_nil, back⟩⟩
  · intro blank
    have first := blank.dropWhile_append (@stops_nil isBlank)
    rw [List.append_nil] at first
    rw [trim, first]
    rfl

/-- A trimmed text is left as it is. -/
theorem Trimmed.trim_eq {text : List Char} (trimmed : Trimmed text) : trim text = text := by
  have first : ([] ++ text).dropWhile isBlank = text := run_nil.dropWhile_append trimmed.first
  have last : ([] ++ text.reverse).dropWhile isBlank = text.reverse :=
    run_nil.dropWhile_append trimmed.last
  rw [List.nil_append] at first last
  rw [trim, first, last, List.reverse_reverse]

/-- Blanks around a trimmed text are trimmed. -/
theorem trim_append {before middle after : List Char} (front : Run isBlank before)
    (back : Run isBlank after) (trimmed : Trimmed middle) (some : middle ≠ []) :
    trim (before ++ (middle ++ after)) = middle := by
  have first : Stops isBlank (middle ++ after) := trimmed.first.append some
  rw [trim, front.dropWhile_append first, List.reverse_append,
    back.reverse.dropWhile_append trimmed.last, List.reverse_reverse]

/-- A text without a blank at the end is trimmed at the beginning alone. -/
theorem trim_eq_dropWhile {text : List Char} (last : Stops isBlank text.reverse) :
    trim text = text.dropWhile isBlank := by
  have whole : text.reverse =
      (text.dropWhile isBlank).reverse ++ (text.takeWhile isBlank).reverse := by
    rw [← List.reverse_append, List.takeWhile_append_dropWhile]
  rw [whole] at last
  have final := run_nil.dropWhile_append last.of_append
  rw [List.nil_append] at final
  rw [trim, final, List.reverse_reverse]

end Zmanim.Text
