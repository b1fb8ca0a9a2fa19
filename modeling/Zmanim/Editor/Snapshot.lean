import Zmanim.Editor.Edit
import Zmanim.Editor.Problem
import Zmanim.Formula.Reading
import Zmanim.Formula.Text
/-! Snapshots of an editor. -/

namespace Zmanim

/-- The inputs of an editor and what the last check found. It could be stale, so every way to make a
snapshot checks its inputs last. -/
structure Snapshot where
  editor : Editor
  isValid : Bool
  problems : List Problem
deriving DecidableEq

namespace Snapshot

/-- Inputs before their first check. -/
def unchecked (editor : Editor) : Snapshot := ⟨editor, false, []⟩

/-- The same inputs after a check. -/
def revalidated (snapshot : Snapshot) : Snapshot :=
  { snapshot with
    problems := snapshot.editor.problems
    isValid := snapshot.editor.problems.isEmpty }

/-- The snapshot at the start. -/
def initial : Snapshot := (unchecked .initial).revalidated

/-- The snapshot of a formula keeps the initial inputs of all other methods. -/
def ofFormula (formula : Formula) : Snapshot :=
  { initial with editor := .ofFormula formula }.revalidated

/-- The formula of the chosen method. -/
def formula (snapshot : Snapshot) : Formula := snapshot.editor.formula

/-- The canonical text of the chosen method. -/
def text (snapshot : Snapshot) : String := snapshot.formula.text

/-- The snapshot whose chosen method is read from a text. -/
def read (text : String) : Except Rejection Snapshot := (Formula.read text).map ofFormula

@[simp] theorem formula_ofFormula (formula : Formula) : (ofFormula formula).formula = formula :=
  Editor.formula_ofFormula formula

/-- A snapshot is read from a text exactly when a formula is. -/
theorem read_eq_ok_iff {text : String} {snapshot : Snapshot} :
    read text = .ok snapshot ↔
      ∃ formula, Formula.read text = .ok formula ∧ snapshot = ofFormula formula := by
  unfold read
  cases Formula.read text <;> simp [Except.map, eq_comm]

theorem read_eq_error_iff {text : String} {rejection : Rejection} :
    read text = .error rejection ↔ Formula.read text = .error rejection := by
  unfold read
  cases Formula.read text <;> simp [Except.map]

/-- The snapshot after an edit. -/
def apply (snapshot : Snapshot) (edit : Edit) : Snapshot :=
  { snapshot with editor := snapshot.editor.apply edit }.revalidated

/-- The snapshot after a run of edits. -/
def applyAll (snapshot : Snapshot) (edits : List Edit) : Snapshot := edits.foldl apply snapshot

@[simp] theorem applyAll_nil (snapshot : Snapshot) : snapshot.applyAll [] = snapshot := rfl

@[simp] theorem applyAll_cons (snapshot : Snapshot) (edit : Edit) (edits : List Edit) :
    snapshot.applyAll (edit :: edits) = (snapshot.apply edit).applyAll edits := rfl

end Snapshot

end Zmanim
