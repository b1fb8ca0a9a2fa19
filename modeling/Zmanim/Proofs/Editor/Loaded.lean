import Zmanim.Proofs.Editor.Latent
import Zmanim.Proofs.Editor.RoundTrip
/-! Loaded snapshots. -/

namespace Zmanim
open Text

namespace Formula

variable {formula : Formula}

/-- The messages about a number that is out of the range for its method. -/
def rangeMessages : Formula → List String
  | .solar degrees _ =>
      if 0 ≤ degrees ∧ degrees ≤ 90 then [] else ["Solar angle must be between 0 and 90 degrees"]
  | .proportional hours _ =>
      if 0.5 ≤ hours ∧ hours ≤ 12 then []
      else ["Proportional hours must be between 0.5 and 12"]
  | _ => []

/-- The edits that bring a formula into an editor. -/
def edits : Formula → List Edit
  | .baseTime name => [.method none, .baseTime name]
  | .fixedZman name => [.method (some .fixedZman), .fixedZman name]
  | .solar degrees direction =>
      [.method (some .solar), .solarDegrees degrees, .solarDirection direction]
  | .offset base side minutes =>
      [.method (some .fixedOffset), .offsetBase base, .offsetSide side, .offsetMinutes minutes]
  | .proportional hours (.standard day) =>
      [.method (some .proportional), .hours hours, .day (.standard day)]
  | .proportional hours (.custom start finish) =>
      [.method (some .proportional), .hours hours, .day .custom, .customStart start,
        .customEnd finish]

end Formula

theorem Problem.message_solarDegrees :
    message .solarDegrees = "Solar angle must be between 0 and 90 degrees" := by
  decide +kernel

theorem Problem.message_proportionalHours :
    message .proportionalHours = "Proportional hours must be between 0.5 and 12" := by
  decide +kernel

namespace NumberRange

/-- The messages of a number are empty, or there is one when the number is out of range. -/
theorem map_message_problems (range : NumberRange) (problem : Problem) (number : Double) :
    (range.problems problem number).map Problem.message =
      if range.low ≤ number ∧ number ≤ range.high then [] else [problem.message] := by
  unfold problems
  simp only [contains_iff]
  split <;> rfl

end NumberRange

namespace Editor

variable {editor : Editor}

/-- The editor of a formula is the initial one after the edits for the formula. -/
theorem ofFormula_eq_applyAll (formula : Formula) :
    ofFormula formula = initial.applyAll formula.edits := by
  cases formula with
  | proportional hours day => cases day <;> rfl
  | _ => rfl

/-- A formula edits the method and the inputs that the method reads. -/
theorem input_of_mem_edits (formula : Formula) :
    ∀ edit ∈ formula.edits,
      edit.input = .method ∨ edit.input ∈ (ofFormula formula).readInputs := by
  cases formula with
  | proportional hours day =>
      cases day <;> simp [Formula.edits, readInputs, ofFormula, Edit.input]
  | _ => simp [Formula.edits, readInputs, ofFormula, Edit.input]

/-- Inputs that the method of a formula does not read are the initial ones. -/
theorem held_ofFormula {formula : Formula} {input : Input} (other : input ≠ .method)
    (unread : input ∉ (ofFormula formula).readInputs) :
    (ofFormula formula).held input = initial.held input := by
  have unwritten : Edit.ofInput input formula.edits = [] := by
    apply Edit.ofInput_eq_nil
    rintro edit member rfl
    rcases input_of_mem_edits formula edit member with method | read
    · exact other method
    · exact unread read
  rw [ofFormula_eq_applyAll, held_applyAll, unwritten]
  rfl

/-- Without a method the formula is the base time. -/
theorem formula_of_method_eq_none (none : editor.method = none) :
    editor.formula = .baseTime editor.baseTime := by
  rw [formula, none]

/-- An editor whose names are identifiers and whose day is whole has no problem but a number that is
out of range. -/
theorem map_message_problems (names : ∀ name ∈ editor.formula.names, isIdentifier name = true)
    (whole : ∀ day ∈ editor.formula.days, day.Whole) :
    editor.problems.map Problem.message = editor.formula.rangeMessages := by
  unfold problems
  unfold formula at names whole ⊢
  cases chosen : editor.method with
  | none =>
      simp only [chosen, Formula.names, List.forall_mem_singleton] at names
      rw [NameInput.problems_eq_nil_iff.mpr names]
      rfl
  | some method =>
      cases method with
      | fixedZman =>
          simp only [chosen, Formula.names, List.forall_mem_singleton] at names
          rw [NameInput.problems_eq_nil_iff.mpr names]
          rfl
      | fixedOffset =>
          simp only [chosen, Formula.names, List.forall_mem_singleton] at names
          rw [NameInput.problems_eq_nil_iff.mpr names]
          rfl
      | solar =>
          have message := solarDegreesRange.map_message_problems .solarDegrees editor.solarDegrees
          rw [Problem.message_solarDegrees] at message
          exact message
      | proportional =>
          simp only [chosen, Formula.names] at names
          simp only [chosen, Formula.days, List.forall_mem_singleton] at whole
          let own := proportionalHoursRange.problems .proportionalHours editor.hours
          have none := editor.day_problems_iff.mpr ⟨names, whole⟩
          have message := proportionalHoursRange.map_message_problems .proportionalHours editor.hours
          rw [Problem.message_proportionalHours] at message
          calc
            _ = (own ++ []).map Problem.message :=
              congrArg (fun others => (own ++ others).map Problem.message) none
            _ = own.map Problem.message := by rw [List.append_nil]
            _ = _ := message

end Editor

namespace Snapshot

variable {snapshot : Snapshot}

/-- A loaded snapshot has a method. Its names are identifiers and its day is whole; its only problem is
a number that is out of range; an input that its method does not read is the initial one. -/
structure Loaded (snapshot : Snapshot) : Prop where
  chosen : snapshot.editor.method ≠ none
  names : ∀ name ∈ snapshot.formula.names, isIdentifier name = true
  whole : ∀ day ∈ snapshot.formula.days, day.Whole
  problems : snapshot.problems.map Problem.message = snapshot.formula.rangeMessages
  isValid : snapshot.isValid = true ↔ snapshot.formula.rangeMessages = []
  unread : ∀ input, input ≠ .method → input ∉ snapshot.editor.readInputs →
    snapshot.editor.held input = Editor.initial.held input

/-- A snapshot that is read from a text is loaded. -/
theorem loaded_of_read {text : String} (taken : read text = .ok snapshot) : snapshot.Loaded := by
  obtain ⟨formula, found, rfl⟩ := read_eq_ok_iff.mp taken
  obtain ⟨parts, spelled, -⟩ := Formula.written_of_read found
  have same : (ofFormula formula).formula = formula := formula_ofFormula formula
  have names : ∀ name ∈ (ofFormula formula).formula.names, isIdentifier name = true :=
    same.symm ▸ spelled.names
  have whole : ∀ day ∈ (ofFormula formula).formula.days, day.Whole := same.symm ▸ spelled.whole
  have fresh : (ofFormula formula).Fresh := fresh_revalidated _
  have messages := Editor.map_message_problems names whole
  rw [← fresh.problems] at messages
  refine ⟨?chosen, names, whole, messages, ?isValid, fun _ => Editor.held_ofFormula⟩
  case chosen =>
    intro none
    exact spelled.method _ (same.symm.trans (Editor.formula_of_method_eq_none none))
  case isValid =>
    rw [fresh.isValid_iff, ← List.map_eq_nil_iff, messages]
    rfl

/-- A day of thirteen hours is loaded and has the message about its hours alone. -/
theorem loaded_of_thirteenHours :
    read "proportional_hours(13, custom(@a, @_b))" =
        .ok (ofFormula (.proportional 13 (.custom (some "a") (some "_b")))) ∧
      (ofFormula (.proportional 13 (.custom (some "a") (some "_b")))).Loaded ∧
      (ofFormula (.proportional 13 (.custom (some "a") (some "_b")))).problems.map Problem.message =
        ["Proportional hours must be between 0.5 and 12"] := by
  have taken : read "proportional_hours(13, custom(@a, @_b))" =
      .ok (ofFormula (.proportional 13 (.custom (some "a") (some "_b")))) :=
    read_eq_of_toOption (by decide +kernel)
  have loaded := loaded_of_read taken
  refine ⟨taken, loaded, ?_⟩
  rw [loaded.problems]
  decide +kernel

end Snapshot

end Zmanim
