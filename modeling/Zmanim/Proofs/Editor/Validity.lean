import Zmanim.Editor.Problem
import Zmanim.Proofs.Formula.Normal
import Zmanim.Proofs.Text.Identifier
/-! Validity of editors. -/

namespace Zmanim
open Text

theorem NameInput.problems_eq_nil_iff {input : NameInput} {name : String} :
    input.problems name = [] ↔ isIdentifier name = true := by
  unfold problems
  split
  · rename_i empty
    have blank : isIdentifier name ≠ true := by
      intro identifier
      rw [isEmpty_of_isIdentifier identifier] at empty
      exact absurd empty (by decide)
    simp [blank]
  · split <;> simp_all

theorem NumberRange.problems_eq_nil_iff {range : NumberRange} {problem : Problem}
    {number : Double} : range.problems problem number = [] ↔ range.contains number = true := by
  unfold problems
  split <;> simp_all

/-- A range between unsigned numbers holds unsigned numbers alone. -/
theorem NumberRange.unsigned_of_contains {range : NumberRange} {number : Double}
    (low : range.low.Unsigned) (high : range.high.Unsigned)
    (inside : range.contains number = true) : number.Unsigned := by
  obtain ⟨above, below⟩ := contains_iff.mp inside
  obtain ⟨bottom, first, nonnegative, -⟩ := Double.unsigned_iff.mp low
  obtain ⟨top, last, -, finite⟩ := Double.unsigned_iff.mp high
  obtain ⟨_, place, same, found, lower⟩ := Double.le_iff.mp above
  obtain ⟨_, _, other, equal, upper⟩ := Double.le_iff.mp below
  obtain rfl := Option.some.inj (first.symm.trans same)
  obtain rfl := Option.some.inj (found.symm.trans other)
  obtain rfl := Option.some.inj (last.symm.trans equal)
  exact Double.unsigned_iff.mpr ⟨place, found, by omega, by omega⟩

theorem unsigned_of_solarDegreesRange {degrees : Double}
    (inside : solarDegreesRange.contains degrees = true) : degrees.Unsigned := by
  have low : solarDegreesRange.low.Unsigned := ⟨by decide +kernel, by decide +kernel⟩
  have high : solarDegreesRange.high.Unsigned := ⟨by decide +kernel, by decide +kernel⟩
  exact NumberRange.unsigned_of_contains low high inside

theorem unsigned_of_proportionalHoursRange {hours : Double}
    (inside : proportionalHoursRange.contains hours = true) : hours.Unsigned := by
  have low : proportionalHoursRange.low.Unsigned := ⟨by decide +kernel, by decide +kernel⟩
  have high : proportionalHoursRange.high.Unsigned := ⟨by decide +kernel, by decide +kernel⟩
  exact NumberRange.unsigned_of_contains low high inside

namespace Formula

variable {formula : Formula}

/-- A name without a method counts as a named time. -/
def settled : Formula → Formula
  | .baseTime name => .fixedZman name
  | formula => formula

/-- Whether the number of a formula is in the range for its method. -/
def inRange : Formula → Bool
  | .solar degrees _ => solarDegreesRange.contains degrees
  | .proportional hours _ => proportionalHoursRange.contains hours
  | _ => true

theorem text_settled (formula : Formula) : formula.settled.text = formula.text := by
  cases formula <;> rfl

theorem inRange_settled (formula : Formula) : formula.settled.inRange = formula.inRange := by
  cases formula <;> rfl

theorem inRange_normal (formula : Formula) : formula.normal.inRange = formula.inRange := by
  cases formula with
  | solar degrees => exact Double.contains_normal solarDegreesRange degrees
  | proportional hours => exact Double.contains_normal proportionalHoursRange hours
  | _ => rfl

end Formula

namespace Editor

/-- A missing name is written as the empty name, which is no identifier. -/
theorem isIdentifier_getD_iff {name : Option String} :
    isIdentifier (name.getD "") = true ↔
      name.isSome = true ∧ ∀ found ∈ name.toList, isIdentifier found = true := by
  cases name with
  | none => simp [isIdentifier]
  | some found => simp

/-- The problems of a day concern the endpoints of a custom day alone. -/
theorem day_problems_iff (editor : Editor) :
    (match editor.day with
      | .standard _ => []
      | .custom =>
          NameInput.customStart.problems (editor.customStart.getD "")
            ++ NameInput.customEnd.problems (editor.customEnd.getD "")) = [] ↔
      (∀ name ∈ editor.proportionalDay.names, isIdentifier name = true) ∧
        editor.proportionalDay.Whole := by
  unfold proportionalDay
  cases editor.day with
  | standard day => simp [Day.names, Day.Whole]
  | custom =>
      simp only [List.append_eq_nil_iff, NameInput.problems_eq_nil_iff, isIdentifier_getD_iff,
        Day.names, Day.Whole, List.forall_mem_append]
      constructor
      · rintro ⟨⟨first, start⟩, last, finish⟩
        exact ⟨⟨start, finish⟩, first, last⟩
      · rintro ⟨⟨start, finish⟩, first, last⟩
        exact ⟨⟨first, start⟩, last, finish⟩

/-- An editor has no problems exactly when its formula is representable and its number is in
range. -/
theorem problems_eq_nil_iff (editor : Editor) :
    editor.problems = [] ↔
      editor.formula.settled.Representable ∧ editor.formula.inRange = true := by
  unfold problems formula
  cases editor.method with
  | none =>
      simp only [NameInput.problems_eq_nil_iff, Formula.settled, Formula.inRange,
        Formula.representable_fixedZman_iff, and_true]
  | some method =>
      cases method with
      | fixedZman =>
          simp only [NameInput.problems_eq_nil_iff, Formula.settled, Formula.inRange,
            Formula.representable_fixedZman_iff, and_true]
      | fixedOffset =>
          simp only [NameInput.problems_eq_nil_iff, Formula.settled, Formula.inRange,
            Formula.representable_offset_iff, and_true]
      | solar =>
          simp only [NumberRange.problems_eq_nil_iff, Formula.settled, Formula.inRange,
            Formula.representable_solar_iff]
          exact ⟨fun inside => ⟨unsigned_of_solarDegreesRange inside, inside⟩, And.right⟩
      | proportional =>
          simp only [NumberRange.problems_eq_nil_iff, Formula.settled, Formula.inRange,
            Formula.representable_proportional_iff, List.append_eq_nil_iff]
          constructor
          · rintro ⟨inside, none⟩
            have day := editor.day_problems_iff.mp none
            exact ⟨⟨unsigned_of_proportionalHoursRange inside, day⟩, inside⟩
          · rintro ⟨⟨-, day⟩, inside⟩
            exact ⟨inside, editor.day_problems_iff.mpr day⟩

end Editor

end Zmanim
