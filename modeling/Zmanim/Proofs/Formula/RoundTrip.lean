import Zmanim.Proofs.Formula.Normal
import Zmanim.Proofs.Formula.Reading
/-! Round trips of formulas. -/

namespace Zmanim
open Text

variable {day : Day} {formula : Formula}

/-- A whole day is written as its text says. -/
theorem Day.Whole.exists_parts (whole : day.Whole)
    (names : ∀ name ∈ day.names, isIdentifier name = true) :
    ∃ parts, day.Parts parts ∧ Laid parts day.text.toList := by
  cases day with
  | standard day => exact ⟨_, .standard day, .last _⟩
  | custom start finish =>
      obtain ⟨first, rfl⟩ := Option.isSome_iff_exists.mp whole.1
      obtain ⟨second, rfl⟩ := Option.isSome_iff_exists.mp whole.2
      have start : isIdentifier first = true := names first (by simp [Day.names])
      have finish : isIdentifier second = true := names second (by simp [Day.names])
      have laid := Laid.adjoin "custom".toList (.adjoin ['('] (.adjoin ('@' :: first.toList)
        (.spaced [','] (.adjoin ('@' :: second.toList) (.last [')'])))))
      refine ⟨_, .custom start finish, ?_⟩
      simpa [Day.text, isEmpty_of_isIdentifier start, isEmpty_of_isIdentifier finish] using laid

namespace Formula

theorem written_solar {numeral : Numeral} (direction : SolarDirection)
    (wellFormed : numeral.WellFormed) :
    (solar (.ofDecimal numeral.value) direction).Written
      ("solar(".toList ++ numeral.spelling ++ ", ".toList ++ direction.token.toList ++ [')']) := by
  have laid := Laid.adjoin "solar".toList (.adjoin ['('] (.adjoin numeral.spelling
    (.spaced [','] (.adjoin direction.token.toList (.last [')'])))))
  refine ⟨_, .solar direction wellFormed, ?_⟩
  simpa using laid

/-- A representable formula is written as its text says, once its numbers have their normal form. -/
theorem Representable.written (representable : formula.Representable) :
    formula.normal.Written formula.text.toList := by
  cases formula with
  | baseTime name => exact absurd rfl (representable.method name)
  | fixedZman name =>
      have identifier := representable.names name List.mem_cons_self
      exact ⟨_, .fixedZman identifier List.mem_cons_self, .last _⟩
  | solar degrees direction =>
      obtain ⟨numeral, wellFormed, spelled, normal⟩ :=
        (representable.numbers degrees List.mem_cons_self).exists_numeral
      rw [Formula.normal, normal]
      simpa [text_solar, spelled] using written_solar direction wellFormed
  | offset base side minutes =>
      have identifier := representable.names base List.mem_cons_self
      have count : Nat.ofDigitChars 10 (Nat.toDigits 10 minutes.toNat) 0 = minutes.toNat :=
        Nat.ofDigitChars_ten_toDigits
      have fits : Nat.ofDigitChars 10 (Nat.toDigits 10 minutes.toNat) 0 < UInt32.size := by
        rw [count]
        exact minutes.toNat_lt
      have parts := Parts.offset side identifier List.mem_cons_self Nat.toDigits_ne_nil
        (Decimal.run_toDigits minutes.toNat) fits
      rw [count, UInt32.ofNat_toNat] at parts
      have laid := Laid.spaced base.toList (.spaced [side.sign]
        (.last (Nat.toDigits 10 minutes.toNat ++ "min".toList)))
      refine ⟨_, parts, ?_⟩
      simpa [text_offset] using laid
  | proportional hours day =>
      obtain ⟨numeral, wellFormed, spelled, normal⟩ :=
        (representable.numbers hours List.mem_cons_self).exists_numeral
      obtain ⟨parts, written, inner⟩ :=
        (representable.days day List.mem_cons_self).exists_parts representable.names
      have last := inner.append run_nil (.last [')'])
      rw [Formula.normal, normal]
      refine ⟨_, .proportional wellFormed written, ?_⟩
      have laid := Laid.adjoin "proportional_hours".toList (.adjoin ['(']
        (.adjoin numeral.spelling (.spaced [','] last)))
      simpa [text_proportional, spelled] using laid

theorem Written.read_eq {source : String} (written : formula.Written source.toList) :
    Formula.read source = .ok formula := by
  rw [read_eq_ok_iff, written.trimmed.trim_eq]
  exact (ofTrimmed?_eq_some_iff_written written.trimmed).mpr written

/-- A representable formula is read back from its text in its normal form. -/
theorem Representable.read_text (representable : formula.Representable) :
    Formula.read formula.text = .ok formula.normal :=
  representable.written.read_eq

theorem written_of_read {source : String} (read : Formula.read source = .ok formula) :
    formula.Written (trim source.toList) :=
  (ofTrimmed?_eq_some_iff_written (trimmed_trim _)).mp (read_eq_ok_iff.mp read)

/-- After a name and a bracket, no formula goes on with anything but a gap or a digit. -/
theorem not_read_of_bracket {source name : String} {first : Char} {inner last : List Char}
    (identifier : isIdentifier name = true) (solid : Solid last) (gap : isGap first = false)
    (digit : first.isDigit = false)
    (shape : source.toList = name.toList ++ ('(' :: first :: inner ++ last)) :
    Formula.read source ≠ .ok formula := by
  intro read
  have trimmed : Trimmed (name.toList ++ ('(' :: first :: inner ++ last)) :=
    (Solid.of_isIdentifier identifier).trimmed solid
  rw [read_eq_ok_iff, shape, trimmed.trim_eq, List.cons_append] at read
  obtain ⟨form, -, taken⟩ := List.exists_of_findSome?_eq_some read
  obtain ⟨other, rest, same, found⟩ := Form.exists_digit_of_reader identifier
    (stops_cons.mpr gap) (Form.read?_eq_some_iff.mp taken)
  rw [← (List.cons.inj same).1, digit] at found
  exact absurd found (by decide)

/-- A number with a sign or letters makes the text of a formula unreadable. -/
theorem unsigned_of_read_text {again : Formula} (read : Formula.read formula.text = .ok again) :
    ∀ number ∈ formula.numbers, number.Unsigned := by
  intro number member
  refine Classical.byContradiction fun signed => ?_
  obtain ⟨first, rest, written, gap, digit⟩ := Double.exists_mark_of_not_unsigned signed
  cases formula with
  | solar degrees direction =>
      obtain rfl : number = degrees := by simpa [numbers] using member
      have shape : (solar number direction).text.toList = "solar".toList ++
          ('(' :: first :: (rest ++ ", ".toList ++ direction.token.toList) ++ [')']) := by
        simp [text_solar, written]
      exact not_read_of_bracket (by decide) (.mark (by decide)) gap digit shape read
  | proportional hours day =>
      obtain rfl : number = hours := by simpa [numbers] using member
      have shape : (proportional number day).text.toList = "proportional_hours".toList ++
          ('(' :: first :: (rest ++ ", ".toList ++ day.text.toList) ++ [')']) := by
        simp [text_proportional, written]
      exact not_read_of_bracket (by decide) (.mark (by decide)) gap digit shape read
  | _ => exact absurd member (by simp [numbers])

/-- An infinite number makes the text of a formula unreadable. -/
theorem not_read_of_infinite {again : Formula} (member : .infinite false ∈ formula.numbers) :
    Formula.read formula.text ≠ .ok again := by
  intro read
  have finite := (unsigned_of_read_text read _ member).finite
  exact absurd finite (by decide)

/-- A numeral of a formula is read as the nearest double. -/
theorem Parts.exists_decimal {parts : List (List Char)} (spelled : formula.Parts parts) :
    ∀ number ∈ formula.numbers, ∃ decimal, number = .ofDecimal decimal := by
  cases spelled <;> simp [numbers]

theorem Day.Parts.names {parts : List (List Char)} (spelled : day.Parts parts) :
    ∀ name ∈ day.names, isIdentifier name = true := by
  cases spelled with
  | standard => simp [Day.names]
  | custom start finish => simp [Day.names, start, finish]

theorem Day.Parts.whole {parts : List (List Char)} (spelled : day.Parts parts) : day.Whole := by
  cases spelled <;> simp [Day.Whole]

theorem Parts.method {parts : List (List Char)} (spelled : formula.Parts parts) :
    ∀ name, formula ≠ .baseTime name := by
  cases spelled <;> simp

theorem Parts.names {parts : List (List Char)} (spelled : formula.Parts parts) :
    ∀ name ∈ formula.names, isIdentifier name = true := by
  cases spelled with
  | solar => simp [Formula.names]
  | proportional wellFormed day => exact Day.Parts.names day
  | offset side identifier => simpa [Formula.names] using identifier
  | fixedZman identifier => simpa [Formula.names] using identifier

theorem Parts.whole {parts : List (List Char)} (spelled : formula.Parts parts) :
    ∀ day ∈ formula.days, day.Whole := by
  cases spelled with
  | proportional wellFormed day => simpa [days] using Day.Parts.whole day
  | _ => simp [days]

/-- A written formula is representable when its numbers are finite. -/
theorem Parts.representable {parts : List (List Char)} (spelled : formula.Parts parts)
    (finite : ∀ number ∈ formula.numbers, number.isFinite = true) : formula.Representable where
  method := spelled.method
  names := spelled.names
  numbers number member := by
    obtain ⟨decimal, rfl⟩ := spelled.exists_decimal number member
    exact Double.unsigned_ofDecimal (finite _ member)
  days := spelled.whole

theorem Parts.normal_eq {parts : List (List Char)} (spelled : formula.Parts parts) :
    formula.normal = formula := by
  cases spelled <;> simp only [normal, Double.normal_ofDecimal]

/-- The text of a written formula is readable exactly when its numbers are finite. -/
theorem Parts.read_text_iff {parts : List (List Char)} (spelled : formula.Parts parts) :
    (∃ again, Formula.read formula.text = .ok again) ↔
      ∀ number ∈ formula.numbers, number.isFinite = true := by
  constructor
  · rintro ⟨again, read⟩ number member
    cases finite : number.isFinite with
    | true => rfl
    | false =>
        obtain ⟨decimal, rfl⟩ := spelled.exists_decimal number member
        have infinite := Double.eq_infinite_of_ofDecimal (finite ▸ Bool.false_ne_true)
        exact absurd read (not_read_of_infinite (infinite ▸ member))
  · intro finite
    exact ⟨_, (spelled.representable finite).read_text⟩

/-- The text of a formula is read as a formula that agrees with it exactly when the formula is
representable; a name without a method is read as a named time exactly when it is an identifier. -/
theorem read_text_agrees_iff (formula : Formula) :
    ((∃ again, Formula.read formula.text = .ok again ∧ again.agrees formula = true) ↔
      formula.Representable) ∧
    ∀ name, Formula.read (Formula.baseTime name).text = .ok (.fixedZman name) ↔
      isIdentifier name = true := by
  refine ⟨⟨?_, ?_⟩, fun name => ⟨?_, ?_⟩⟩
  · rintro ⟨again, read, agrees⟩
    obtain ⟨parts, spelled, -⟩ := written_of_read read
    rw [← text_eq_of_agrees agrees] at read
    have finite := spelled.read_text_iff.mp ⟨again, read⟩
    rw [← representable_normal, ← normal_eq_of_agrees agrees, representable_normal]
    exact spelled.representable finite
  · intro representable
    exact ⟨formula.normal, representable.read_text, representable.normal_agrees⟩
  · intro read
    obtain ⟨parts, spelled, -⟩ := written_of_read read
    cases spelled with
    | fixedZman identifier => exact identifier
  · intro identifier
    have representable : (fixedZman name).Representable :=
      ⟨by simp, by simpa [names] using identifier, by simp [numbers], by simp [days]⟩
    exact representable.read_text

end Formula

end Zmanim
