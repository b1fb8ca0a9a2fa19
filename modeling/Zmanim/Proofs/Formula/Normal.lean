import Zmanim.Proofs.Number.Double
import Zmanim.Text.Name
/-! Formulas in normal form. -/

namespace Zmanim

/-- The names that the endpoints of a day carry. -/
def Day.names : Day → List String
  | .standard _ => []
  | .custom start finish => start.toList ++ finish.toList

/-- A custom day is whole when it has both endpoints. -/
def Day.Whole : Day → Prop
  | .standard _ => True
  | .custom start finish => start.isSome = true ∧ finish.isSome = true

namespace Formula

variable {first second formula : Formula}

/-- The names that a formula carries. -/
def names : Formula → List String
  | .baseTime name => [name]
  | .fixedZman name => [name]
  | .solar _ _ => []
  | .offset base _ _ => [base]
  | .proportional _ day => day.names

/-- The numbers that a formula carries, apart from its minutes. -/
def numbers : Formula → List Double
  | .solar degrees _ => [degrees]
  | .proportional hours _ => [hours]
  | _ => []

/-- The days that a formula carries. -/
def days : Formula → List Day
  | .proportional _ day => [day]
  | _ => []

/-- A representable formula has a method, and the grammar can write its names, numbers and day. -/
structure Representable (formula : Formula) : Prop where
  method : ∀ name, formula ≠ .baseTime name
  names : ∀ name ∈ formula.names, Text.isIdentifier name = true
  numbers : ∀ number ∈ formula.numbers, number.Unsigned
  days : ∀ day ∈ formula.days, day.Whole

theorem representable_fixedZman_iff {name : String} :
    (fixedZman name).Representable ↔ Text.isIdentifier name = true := by
  constructor
  · intro representable
    exact representable.names name List.mem_cons_self
  · intro identifier
    exact ⟨by simp, by simpa [names] using identifier, by simp [numbers], by simp [days]⟩

theorem representable_solar_iff {degrees : Double} {direction : SolarDirection} :
    (solar degrees direction).Representable ↔ degrees.Unsigned := by
  constructor
  · intro representable
    exact representable.numbers degrees List.mem_cons_self
  · intro unsigned
    exact ⟨by simp, by simp [names], by simpa [numbers] using unsigned, by simp [days]⟩

theorem representable_offset_iff {base : String} {side : OffsetSide} {minutes : UInt32} :
    (offset base side minutes).Representable ↔ Text.isIdentifier base = true := by
  constructor
  · intro representable
    exact representable.names base List.mem_cons_self
  · intro identifier
    exact ⟨by simp, by simpa [names] using identifier, by simp [numbers], by simp [days]⟩

theorem representable_proportional_iff {hours : Double} {day : Day} :
    (proportional hours day).Representable ↔
      hours.Unsigned ∧ (∀ name ∈ day.names, Text.isIdentifier name = true) ∧ day.Whole := by
  constructor
  · intro representable
    exact ⟨representable.numbers hours List.mem_cons_self, representable.names,
      representable.days day List.mem_cons_self⟩
  · rintro ⟨unsigned, identifiers, whole⟩
    exact ⟨by simp, identifiers, by simpa [numbers] using unsigned, by simpa [days] using whole⟩

/-- The formula with every number as it is written. -/
def normal : Formula → Formula
  | .solar degrees direction => .solar degrees.normal direction
  | .proportional hours day => .proportional hours.normal day
  | formula => formula

theorem text_solar (degrees : Double) (direction : SolarDirection) :
    (solar degrees direction).text =
      "solar(" ++ degrees.formulaText ++ ", " ++ direction.token ++ ")" := rfl

theorem text_offset (base : String) (side : OffsetSide) (minutes : UInt32) :
    (offset base side minutes).text =
      base ++ " " ++ side.sign.toString ++ " " ++ Nat.repr minutes.toNat ++ "min" := rfl

theorem text_proportional (hours : Double) (day : Day) :
    (proportional hours day).text =
      "proportional_hours(" ++ hours.formulaText ++ ", " ++ day.text ++ ")" := rfl

theorem text_normal (formula : Formula) : formula.normal.text = formula.text := by
  have written (number : Double) : number.normal.formulaText = number.formulaText := by
    rw [← Double.text_normal, ← Double.text_normal, Double.normal_normal]
  cases formula with
  | solar degrees direction => rw [normal, text_solar, text_solar, written]
  | proportional hours day => rw [normal, text_proportional, text_proportional, written]
  | _ => rfl

theorem names_normal (formula : Formula) : formula.normal.names = formula.names := by
  cases formula <;> rfl

theorem numbers_normal (formula : Formula) :
    formula.normal.numbers = formula.numbers.map Double.normal := by
  cases formula <;> rfl

theorem days_normal (formula : Formula) : formula.normal.days = formula.days := by
  cases formula <;> rfl

theorem normal_eq_baseTime_iff {name : String} :
    formula.normal = .baseTime name ↔ formula = .baseTime name := by
  cases formula <;> simp [normal]

theorem representable_normal : formula.normal.Representable ↔ formula.Representable := by
  have numbers : (∀ number ∈ formula.normal.numbers, number.Unsigned) ↔
      ∀ number ∈ formula.numbers, number.Unsigned := by
    simp only [numbers_normal, List.forall_mem_map, Double.unsigned_normal]
  constructor
  · intro normal
    exact ⟨fun name same => normal.method name (normal_eq_baseTime_iff.mpr same),
      names_normal formula ▸ normal.names, numbers.mp normal.numbers,
      days_normal formula ▸ normal.days⟩
  · intro representable
    exact ⟨fun name same => representable.method name (normal_eq_baseTime_iff.mp same),
      (names_normal formula).symm ▸ representable.names, numbers.mpr representable.numbers,
      (days_normal formula).symm ▸ representable.days⟩

theorem normal_eq_of_agrees (agrees : first.agrees second = true) :
    first.normal = second.normal := by
  unfold Formula.agrees at agrees
  split at agrees
  · obtain ⟨same, rfl⟩ : _ ∧ _ := by simpa using agrees
    simp only [normal, Double.normal_eq_of_sameNumber same]
  · obtain ⟨same, rfl⟩ : _ ∧ _ := by simpa using agrees
    simp only [normal, Double.normal_eq_of_sameNumber same]
  · rw [beq_iff_eq.mp agrees]

theorem text_eq_of_agrees (agrees : first.agrees second = true) : first.text = second.text := by
  rw [← text_normal first, normal_eq_of_agrees agrees, text_normal]

/-- The normal form agrees with the formula when all numbers are numbers. -/
theorem Representable.normal_agrees (representable : formula.Representable) :
    formula.normal.agrees formula = true := by
  cases formula with
  | solar degrees direction =>
      have unsigned := representable.numbers degrees List.mem_cons_self
      simp [normal, agrees, unsigned.sameNumber_normal]
  | proportional hours day =>
      have unsigned := representable.numbers hours List.mem_cons_self
      simp [normal, agrees, unsigned.sameNumber_normal]
  | _ => simp [normal, agrees]

end Formula

end Zmanim
