import Zmanim.Number.Shortest
import Zmanim.Proofs.Text.Run
/-! Numerals in a text. -/

namespace Zmanim
open Text

/-- A numeral has at least one digit, and digits only, also after the point. -/
structure Numeral.WellFormed (numeral : Numeral) : Prop where
  nonempty : numeral.whole ≠ []
  whole : Run Char.isDigit numeral.whole
  fraction : Run Char.isDigit numeral.fraction

namespace Numeral

variable {text left : List Char} {numeral : Numeral}

/-- The characters that can go on in a numeral. -/
def goesOn (character : Char) : Bool := character.isDigit || character == '.'

/-- No number goes on with a gap. -/
theorem goesOn_eq_false_of_isGap {character : Char} (gap : isGap character = true) :
    goesOn character = false := by
  have other : (character == '.') = false := by
    rw [beq_eq_false_iff_ne]
    rintro rfl
    exact absurd gap (by decide)
  rw [goesOn, isDigit_eq_false_of_isGap gap, other, Bool.or_false]

theorem scanFraction_run (text : List Char) : Run Char.isDigit (scanFraction text).1 := by
  unfold scanFraction
  split
  · split
    · exact run_nil
    · exact run_takeWhile _
  · exact run_nil

/-- Only well-formed numerals are taken. -/
theorem wellFormed_of_scan (found : scan text = some (numeral, left)) : numeral.WellFormed := by
  unfold scan at found
  split at found
  · simp at found
  · rename_i nonempty
    obtain ⟨rfl, rfl⟩ := Prod.mk.inj (Option.some.inj found)
    exact ⟨nonempty, run_takeWhile text, scanFraction_run _⟩

/-- A fraction without digits is left unread when no number goes on. -/
theorem scanFraction_none (stops : Stops goesOn left) : scanFraction left = ([], left) := by
  unfold scanFraction
  split
  · exact absurd (stops_cons.mp stops) (by decide)
  · rfl

theorem scanFraction_some {fraction : List Char} (digits : Run Char.isDigit fraction)
    (nonempty : fraction ≠ []) (stops : Stops Char.isDigit left) :
    scanFraction ('.' :: (fraction ++ left)) = (fraction, left) := by
  simp [scanFraction, digits.takeWhile_append stops, digits.dropWhile_append stops, nonempty]

theorem stops_isDigit (stops : Stops goesOn left) : Stops Char.isDigit left := by
  intro character first
  have outside := stops character first
  simp only [goesOn, Bool.or_eq_false_iff] at outside
  exact outside.1

/-- A well-formed numeral is taken whole when the text after it does not go on. -/
theorem scan_spelling_append (wellFormed : numeral.WellFormed) (stops : Stops goesOn left) :
    scan (numeral.spelling ++ left) = some (numeral, left) := by
  obtain ⟨whole, fraction⟩ := numeral
  obtain ⟨nonempty, digits, decimals⟩ := wellFormed
  simp only at nonempty digits decimals
  by_cases short : fraction = []
  · subst short
    have first := digits.takeWhile_append (stops_isDigit stops)
    have rest := digits.dropWhile_append (stops_isDigit stops)
    simp [scan, spelling, first, rest, nonempty, scanFraction_none stops]
  · have point : Stops Char.isDigit ('.' :: (fraction ++ left)) := by simp
    have first := digits.takeWhile_append point
    have rest := digits.dropWhile_append point
    simp [scan, spelling, short, first, rest, nonempty,
      scanFraction_some decimals short (stops_isDigit stops)]

theorem scan_eq_none (stops : Stops Char.isDigit text) : scan text = none := by
  have none : text.takeWhile Char.isDigit = [] := by
    simpa using run_nil.takeWhile_append stops
  simp [scan, none]

theorem scanFraction_append (stops : Stops goesOn left) :
    scanFraction (text ++ left) = ((scanFraction text).1, (scanFraction text).2 ++ left) := by
  have digit := stops_isDigit stops
  by_cases point : ∃ rest, text = '.' :: rest
  · obtain ⟨rest, rfl⟩ := point
    simp only [List.cons_append, scanFraction, digit.takeWhile_append, digit.dropWhile_append]
    split <;> rfl
  · cases text with
    | nil => exact scanFraction_none stops
    | cons first rest =>
        have other : first ≠ '.' := fun same => point ⟨rest, by rw [same]⟩
        simp [scanFraction, other]

/-- What is added to a text does not change its first numeral when no number goes on there. -/
theorem scan_append (stops : Stops goesOn left) :
    scan (text ++ left) =
      (scan text).map fun found => (found.1, found.2 ++ left) := by
  have digit := stops_isDigit stops
  simp only [scan, digit.takeWhile_append, digit.dropWhile_append, scanFraction_append stops]
  split <;> rfl

/-- A well-formed numeral begins with a digit. -/
theorem exists_spelling_eq_cons (wellFormed : numeral.WellFormed) :
    ∃ first rest, numeral.spelling = first :: rest ∧ first.isDigit = true := by
  obtain ⟨nonempty, digits, -⟩ := wellFormed
  obtain ⟨first, rest, shape⟩ := List.exists_cons_of_ne_nil nonempty
  rw [shape, run_cons] at digits
  unfold spelling
  split
  · exact ⟨first, rest, shape, digits.1⟩
  · exact ⟨first, rest ++ '.' :: numeral.fraction, by rw [shape, List.cons_append], digits.1⟩

end Numeral

namespace Decimal

theorem run_toDigits (digits : Nat) : Run Char.isDigit (Nat.toDigits 10 digits) :=
  fun _ member => Nat.isDigit_of_mem_toDigits (by decide) (by decide) member

/-- The numeral that writes a decimal is well-formed. -/
theorem wellFormed_numeral (decimal : Decimal) : decimal.numeral.WellFormed := by
  unfold numeral
  split
  · exact ⟨Nat.toDigits_ne_nil, run_toDigits _, run_nil⟩
  · refine ⟨Nat.toDigits_ne_nil, run_toDigits _, ?_⟩
    rw [List.leftpad, run_append]
    constructor
    · intro character member
      rw [List.eq_of_mem_replicate member]
      decide
    · exact run_toDigits _

end Decimal

end Zmanim
