import Zmanim.Proofs.Editor.Latent
import Zmanim.Proofs.Editor.Validity
import Zmanim.Proofs.Formula.RoundTrip
import Zmanim.Proofs.Number.Rounding
/-! Round trips of snapshots. -/

namespace Zmanim

namespace Formula

theorem settled_normal (formula : Formula) :
    formula.settled.normal.settled = formula.settled.normal := by
  cases formula <;> rfl

theorem text_eq_of_settled_agrees {first second : Formula}
    (agrees : first.settled.agrees second.settled = true) : first.text = second.text := by
  rw [← text_settled first, text_eq_of_agrees agrees, text_settled]

end Formula

namespace Snapshot

variable {snapshot again : Snapshot}

/-- A snapshot that was checked is valid exactly when its formula is representable and its number is
in range. -/
theorem Fresh.isValid_iff_representable (fresh : snapshot.Fresh) :
    snapshot.isValid = true ↔
      snapshot.formula.settled.Representable ∧ snapshot.formula.inRange = true := by
  rw [fresh.isValid, List.isEmpty_iff]
  exact snapshot.editor.problems_eq_nil_iff

/-- A safe copy of a snapshot is read from its text, is valid, and has the same formula. -/
structure SafeCopy (snapshot again : Snapshot) : Prop where
  read : Snapshot.read snapshot.text = .ok again
  valid : again.isValid = true
  agrees : again.formula.settled.agrees snapshot.formula.settled = true

/-- A valid snapshot has a safe copy. -/
theorem Fresh.exists_safeCopy (fresh : snapshot.Fresh) (valid : snapshot.isValid = true) :
    ∃ again, snapshot.SafeCopy again := by
  obtain ⟨representable, inRange⟩ := fresh.isValid_iff_representable.mp valid
  refine ⟨ofFormula snapshot.formula.settled.normal, ?read, ?valid, ?agrees⟩
  case read =>
    have taken := representable.read_text
    rw [Formula.text_settled] at taken
    exact read_eq_ok_iff.mpr ⟨_, taken, rfl⟩
  case valid =>
    rw [(Made.ofFormula _).fresh.isValid_iff_representable, formula_ofFormula,
      Formula.settled_normal, Formula.representable_normal, Formula.inRange_normal,
      Formula.inRange_settled]
    exact ⟨representable, inRange⟩
  case agrees =>
    rw [formula_ofFormula, Formula.settled_normal]
    exact representable.normal_agrees

/-- Validity depends on the formula alone, up to the sign of a zero. -/
theorem Fresh.isValid_of_agrees (fresh : snapshot.Fresh) (checked : again.Fresh)
    (valid : again.isValid = true)
    (agrees : again.formula.settled.agrees snapshot.formula.settled = true) :
    snapshot.isValid = true := by
  have same := Formula.normal_eq_of_agrees agrees
  rw [checked.isValid_iff_representable] at valid
  rw [fresh.isValid_iff_representable]
  rw [← Formula.representable_normal, ← Formula.inRange_settled,
    ← Formula.inRange_normal] at valid ⊢
  rwa [← same]

/-- A snapshot is valid exactly when it has a safe copy, and a safe copy has the same text. -/
theorem isValid_iff_exists_safeCopy (reachable : snapshot.Reachable) :
    (snapshot.isValid = true ↔ ∃ again, snapshot.SafeCopy again) ∧
      ∀ again, snapshot.SafeCopy again → again.text = snapshot.text := by
  refine ⟨⟨reachable.fresh.exists_safeCopy, ?valid⟩, ?text⟩
  case valid =>
    rintro ⟨again, copy⟩
    exact reachable.fresh.isValid_of_agrees (Made.read copy.read).fresh copy.valid copy.agrees
  case text =>
    intro again copy
    exact Formula.text_eq_of_settled_agrees copy.agrees

/-- A base time that is edited twice comes back as a named time. -/
theorem text_of_safeCopy_baseTime :
    (initial.applyAll [.baseTime "", .baseTime "sunset"]).isValid = true ∧
      (ofFormula (.fixedZman "sunset")).text =
        (initial.applyAll [.baseTime "", .baseTime "sunset"]).text := by
  have reachable := (Reachable.made .initial).applyAll [.baseTime "", .baseTime "sunset"]
  have copy : (initial.applyAll [.baseTime "", .baseTime "sunset"]).SafeCopy
      (ofFormula (.fixedZman "sunset")) := ⟨rfl, by decide, by decide⟩
  obtain ⟨valid, text⟩ := isValid_iff_exists_safeCopy reachable
  exact ⟨valid.mpr ⟨_, copy⟩, text _ copy⟩

theorem exists_read_iff {text : String} :
    (∃ again, read text = .ok again) ↔ ∃ formula, Formula.read text = .ok formula := by
  constructor
  · rintro ⟨again, read⟩
    obtain ⟨formula, taken, -⟩ := read_eq_ok_iff.mp read
    exact ⟨formula, taken⟩
  · rintro ⟨formula, taken⟩
    exact ⟨_, read_eq_ok_iff.mpr ⟨formula, taken, rfl⟩⟩

/-- A snapshot that is read from a text comes back from its own text, and its text is readable at
all, exactly when its numbers are finite. -/
theorem read_text_iff_isFinite {text : String} (taken : read text = .ok snapshot) :
    (read snapshot.text = .ok snapshot ↔
      ∀ number ∈ snapshot.formula.numbers, number.isFinite = true) ∧
    ((∃ again, read snapshot.text = .ok again) ↔
      ∀ number ∈ snapshot.formula.numbers, number.isFinite = true) := by
  obtain ⟨formula, found, rfl⟩ := read_eq_ok_iff.mp taken
  obtain ⟨parts, spelled, -⟩ := Formula.written_of_read found
  have readable : (∃ again, read (ofFormula formula).text = .ok again) ↔
      ∀ number ∈ formula.numbers, number.isFinite = true := by
    rw [exists_read_iff, Snapshot.text, formula_ofFormula, spelled.read_text_iff]
  rw [formula_ofFormula]
  refine ⟨⟨fun same => readable.mp ⟨_, same⟩, ?_⟩, readable⟩
  intro finite
  have again := (spelled.representable finite).read_text
  rw [spelled.normal_eq] at again
  exact read_eq_ok_iff.mpr ⟨formula, by rwa [Snapshot.text, formula_ofFormula], rfl⟩

theorem read_eq_of_toOption {text : String} (found : (read text).toOption = some snapshot) :
    read text = .ok snapshot := by
  cases taken : read text with
  | ok other =>
      rw [taken] at found
      rw [Option.some.inj found]
  | error rejection =>
      rw [taken] at found
      exact absurd found nofun

/-- A finite angle comes back. -/
theorem read_text_of_solar :
    read "solar(18, after_noon)" = .ok (ofFormula (.solar 18 .afterNoon)) ∧
      read (ofFormula (.solar 18 .afterNoon)).text = .ok (ofFormula (.solar 18 .afterNoon)) := by
  have taken : read "solar(18, after_noon)" = .ok (ofFormula (.solar 18 .afterNoon)) :=
    read_eq_of_toOption (by decide +kernel)
  refine ⟨taken, (read_text_iff_isFinite taken).1.mpr ?_⟩
  decide +kernel

/-- The first power of ten that is too large for a finite double. -/
def hugeAngle : Decimal := ⟨Nat.pow 10 309, 0⟩

/-- A text with such an angle is readable, but the text of its snapshot is not. -/
theorem not_exists_read_of_hugeAngle :
    ∃ snapshot, read ("solar(" ++ hugeAngle.text ++ ", before_noon)") = .ok snapshot ∧
      ¬ ∃ again, read snapshot.text = .ok again := by
  refine ⟨ofFormula (.solar (.infinite false) .beforeNoon), ?_, ?_⟩
  · have infinite : Double.ofDecimal hugeAngle = .infinite false := by
      apply Double.eq_infinite_of_ofDecimal
      rw [Ne, Double.isFinite_ofDecimal_iff]
      decide +kernel
    have written := Formula.written_solar .beforeNoon hugeAngle.wellFormed_numeral
    rw [Decimal.value_numeral, infinite] at written
    refine read_eq_ok_iff.mpr ⟨_, Formula.Written.read_eq ?_, rfl⟩
    simpa [Decimal.text, SolarDirection.token] using written
  · rw [exists_read_iff, text, formula_ofFormula]
    rintro ⟨again, found⟩
    exact Formula.not_read_of_infinite List.mem_cons_self found

end Snapshot

end Zmanim
