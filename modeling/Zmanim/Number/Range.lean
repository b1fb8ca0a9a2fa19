import Zmanim.Number.Double
/-! Closed ranges of numbers. -/

namespace Zmanim

/-- A closed range of numbers. -/
structure NumberRange where
  low : Double
  high : Double

/-- A range holds the numbers between its ends; what is not a number is in no range. -/
def NumberRange.contains (range : NumberRange) (number : Double) : Bool :=
  range.low ≤ number && number ≤ range.high

theorem NumberRange.contains_iff {range : NumberRange} {number : Double} :
    range.contains number ↔ range.low ≤ number ∧ number ≤ range.high := by
  simp [contains]

end Zmanim
