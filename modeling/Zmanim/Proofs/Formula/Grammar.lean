import Zmanim.Formula.Basic
import Zmanim.Proofs.Formula.Layout
/-! The grammar of formula text. -/

namespace Zmanim
open Text

variable {part text : List Char} {parts : List (List Char)}

/-- A name stands by itself or as a reference. -/
def nameSpellings (name : String) : List (List Char) := [name.toList, '@' :: name.toList]

/-- A standard day is one word, and a custom day holds two references. -/
inductive Day.Parts : Day → List (List Char) → Prop where
  | standard (day : StandardDay) : Parts (.standard day) [day.token.toList]
  | custom {start finish : String} : isIdentifier start = true → isIdentifier finish = true →
      Parts (.custom (some start) (some finish))
        ["custom".toList, ['('], '@' :: start.toList, [','], '@' :: finish.toList, [')']]

/-- The parts that a formula is written with. A number is the double nearest to its numeral, and
minutes have no gap before their unit. -/
inductive Formula.Parts : Formula → List (List Char) → Prop where
  | solar {numeral : Numeral} (direction : SolarDirection) : numeral.WellFormed →
      Parts (.solar (.ofDecimal numeral.value) direction)
        ["solar".toList, ['('], numeral.spelling, [','], direction.token.toList, [')']]
  | proportional {numeral : Numeral} {day : Day} {dayParts : List (List Char)} :
      numeral.WellFormed → day.Parts dayParts →
      Parts (.proportional (.ofDecimal numeral.value) day)
        (["proportional_hours".toList, ['('], numeral.spelling, [',']] ++ dayParts ++ [[')']])
  | offset {base : String} {spelling digits : List Char} (side : OffsetSide) :
      isIdentifier base = true → spelling ∈ nameSpellings base →
      digits ≠ [] → Run Char.isDigit digits → Nat.ofDigitChars 10 digits 0 < UInt32.size →
      Parts (.offset base side (UInt32.ofNat (Nat.ofDigitChars 10 digits 0)))
        [spelling, [side.sign], digits ++ "min".toList]
  | fixedZman {name : String} {spelling : List Char} :
      isIdentifier name = true → spelling ∈ nameSpellings name → Parts (.fixedZman name) [spelling]

/-- A text writes a formula when it lays out the parts of the formula. -/
def Formula.Written (formula : Formula) (text : List Char) : Prop :=
  ∃ parts, formula.Parts parts ∧ Laid parts text

theorem Solid.of_mem_nameSpellings {name : String} (identifier : isIdentifier name = true)
    (member : part ∈ nameSpellings name) : Solid part := by
  have plain := of_isIdentifier identifier
  simp only [nameSpellings, List.mem_cons, List.not_mem_nil, or_false] at member
  rcases member with rfl | rfl
  · exact plain
  · exact plain.cons (by decide)

theorem SolarDirection.isIdentifier_token (direction : SolarDirection) :
    isIdentifier direction.token = true := by
  cases direction <;> decide

theorem StandardDay.isIdentifier_token (day : StandardDay) : isIdentifier day.token = true := by
  cases day <;> decide

theorem Day.Parts.solid {day : Day} (written : day.Parts parts) : ∀ part ∈ parts, Solid part := by
  cases written with
  | standard day => simpa using Solid.of_isIdentifier day.isIdentifier_token
  | custom start finish =>
      simp only [List.forall_mem_cons]
      exact ⟨.of_isIdentifier (by decide), .mark (by decide),
        (Solid.of_isIdentifier start).cons (by decide), .mark (by decide),
        (Solid.of_isIdentifier finish).cons (by decide), .mark (by decide), by simp⟩

/-- All parts of a formula are solid. -/
theorem Formula.Parts.solid {formula : Formula} (written : formula.Parts parts) :
    ∀ part ∈ parts, Solid part := by
  cases written with
  | solar direction wellFormed =>
      simp only [List.forall_mem_cons]
      exact ⟨.of_isIdentifier (by decide), .mark (by decide), .of_wellFormed wellFormed,
        .mark (by decide), .of_isIdentifier direction.isIdentifier_token, .mark (by decide),
        by simp⟩
  | proportional wellFormed day =>
      simp only [List.forall_mem_append, List.forall_mem_cons]
      exact ⟨⟨⟨.of_isIdentifier (by decide), .mark (by decide), .of_wellFormed wellFormed,
        .mark (by decide), by simp⟩, day.solid⟩, .mark (by decide), by simp⟩
  | offset side identifier spelled nonempty digits =>
      have sign : Solid [side.sign] := .mark (by cases side <;> decide)
      have unit : Solid "min".toList := .of_isIdentifier (by decide)
      simp only [List.forall_mem_cons]
      exact ⟨.of_mem_nameSpellings identifier spelled, sign,
        (Solid.of_digits nonempty digits).append unit, by simp⟩
  | fixedZman identifier spelled =>
      simpa using Solid.of_mem_nameSpellings identifier spelled

theorem Formula.Parts.ne_nil {formula : Formula} (written : formula.Parts parts) : parts ≠ [] := by
  cases written <;> simp

/-- A written formula has no blank at either end. -/
theorem Formula.Written.trimmed {formula : Formula} (written : formula.Written text) :
    Trimmed text := by
  obtain ⟨parts, spelled, laid⟩ := written
  exact laid.trimmed spelled.solid

theorem Formula.Written.ne_nil {formula : Formula} (written : formula.Written text) :
    text ≠ [] := by
  obtain ⟨parts, spelled, laid⟩ := written
  exact laid.text_ne_nil spelled.solid

end Zmanim
