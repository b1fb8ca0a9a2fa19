import Mathlib.Data.List.Basic
import Zmanim.Wire.Editor
/-! Runs of edits. -/

namespace Zmanim

/-- The choice of a method and the inputs of the methods. -/
inductive Input where
  | method
  | baseTime
  | fixedZman
  | solarDegrees
  | solarDirection
  | offsetBase
  | offsetSide
  | offsetMinutes
  | hours
  | day
  | customStart
  | customEnd
deriving DecidableEq, Repr

namespace Edit

/-- The input that an edit writes. -/
def input : Edit → Input
  | .method _ => .method
  | .baseTime _ => .baseTime
  | .fixedZman _ => .fixedZman
  | .solarDegrees _ => .solarDegrees
  | .solarDirection _ => .solarDirection
  | .offsetBase _ => .offsetBase
  | .offsetSide _ => .offsetSide
  | .offsetMinutes _ => .offsetMinutes
  | .hours _ => .hours
  | .day _ => .day
  | .customStart _ => .customStart
  | .customEnd _ => .customEnd

/-- The edits of one input, in their order. -/
def ofInput (input : Input) (edits : List Edit) : List Edit :=
  edits.filter fun edit => edit.input = input

theorem ofInput_cons (input : Input) (edit : Edit) (edits : List Edit) :
    ofInput input (edit :: edits) =
      if edit.input = input then edit :: ofInput input edits else ofInput input edits := by
  simp only [ofInput, List.filter_cons, decide_eq_true_eq]

end Edit

namespace Editor

variable {editor first second : Editor}

/-- What an input holds, as the edit that writes it. -/
def held (editor : Editor) : Input → Edit
  | .method => .method editor.method
  | .baseTime => .baseTime editor.baseTime
  | .fixedZman => .fixedZman editor.fixedZman
  | .solarDegrees => .solarDegrees editor.solarDegrees
  | .solarDirection => .solarDirection editor.solarDirection
  | .offsetBase => .offsetBase editor.offsetBase
  | .offsetSide => .offsetSide editor.offsetSide
  | .offsetMinutes => .offsetMinutes editor.offsetMinutes
  | .hours => .hours editor.hours
  | .day => .day editor.day
  | .customStart => .customStart editor.customStart
  | .customEnd => .customEnd editor.customEnd

/-- An editor is determined by what its inputs hold. -/
theorem eq_of_held (same : ∀ input, first.held input = second.held input) : first = second := by
  rw [Editor.mk.injEq]
  exact ⟨Edit.method.inj (same .method), Edit.baseTime.inj (same .baseTime),
    Edit.fixedZman.inj (same .fixedZman), Edit.solarDegrees.inj (same .solarDegrees),
    Edit.solarDirection.inj (same .solarDirection), Edit.offsetBase.inj (same .offsetBase),
    Edit.offsetSide.inj (same .offsetSide), Edit.offsetMinutes.inj (same .offsetMinutes),
    Edit.hours.inj (same .hours), Edit.day.inj (same .day),
    Edit.customStart.inj (same .customStart), Edit.customEnd.inj (same .customEnd)⟩

/-- An edit writes its own input and leaves every other input alone. -/
theorem held_apply (editor : Editor) (edit : Edit) (input : Input) :
    (editor.apply edit).held input = if edit.input = input then edit else editor.held input := by
  cases edit <;> cases input <;> rfl

/-- After a run of edits an input holds what the last edit of it wrote, or else what it held. -/
theorem held_applyAll (editor : Editor) (edits : List Edit) (input : Input) :
    (editor.applyAll edits).held input =
      (Edit.ofInput input edits).getLast?.getD (editor.held input) := by
  induction edits generalizing editor with
  | nil => rfl
  | cons edit edits ih =>
      rw [applyAll_cons, ih, held_apply, Edit.ofInput_cons]
      split
      · rw [List.getLast?_cons, Option.getD_some]
      · rfl

/-- Edits of different inputs can be done in any order. -/
theorem applyAll_eq_of_ofInput {edits others : List Edit}
    (same : ∀ input, Edit.ofInput input edits = Edit.ofInput input others) :
    editor.applyAll edits = editor.applyAll others := by
  apply eq_of_held
  intro input
  rw [held_applyAll, held_applyAll, same]

/-- The problems of an editor are those of its formula alone. -/
theorem problems_ofFormula_formula (editor : Editor) :
    (ofFormula editor.formula).problems = editor.problems := by
  unfold formula problems
  cases editor.method with
  | none => rfl
  | some method =>
      cases method with
      | proportional =>
          unfold proportionalDay
          cases editor.day <;> rfl
      | _ => rfl

end Editor

namespace Snapshot

variable {snapshot start : Snapshot}

/-- A fresh snapshot has the problems of its inputs, and it is valid when there are none. -/
structure Fresh (snapshot : Snapshot) : Prop where
  problems : snapshot.problems = snapshot.editor.problems
  isValid : snapshot.isValid = snapshot.editor.problems.isEmpty

theorem fresh_revalidated (snapshot : Snapshot) : snapshot.revalidated.Fresh := ⟨rfl, rfl⟩

theorem Fresh.isValid_iff (fresh : snapshot.Fresh) :
    snapshot.isValid = true ↔ snapshot.problems = [] := by
  rw [fresh.isValid, fresh.problems, List.isEmpty_iff]

theorem Fresh.problems_eq (fresh : snapshot.Fresh) :
    snapshot.problems = (ofFormula snapshot.formula).problems := by
  rw [fresh.problems, ← Editor.problems_ofFormula_formula]
  rfl

/-- Fresh snapshots with the same inputs are the same. -/
theorem Fresh.eq_of_editor {other : Snapshot} (fresh : snapshot.Fresh) (again : other.Fresh)
    (same : snapshot.editor = other.editor) : snapshot = other := by
  rw [Snapshot.mk.injEq, fresh.isValid, fresh.problems, again.isValid, again.problems, same]
  exact ⟨rfl, rfl, rfl⟩

/-- The ways to make a snapshot without an edit. Inputs that were stored, in whatever form, are
checked when they are restored. -/
inductive Made : Snapshot → Prop where
  | initial : Made initial
  | ofFormula (formula : Formula) : Made (ofFormula formula)
  | read {text : String} {snapshot : Snapshot} : read text = .ok snapshot → Made snapshot
  | restored (editor : Editor) : Made (unchecked editor).revalidated

/-- The wire form is one of the forms that inputs are stored in. -/
theorem made_of_ofJson? {json : Json} (taken : ofJson? json = some snapshot) : snapshot.Made := by
  obtain ⟨editor, -, rfl⟩ := Option.map_eq_some_iff.mp taken
  exact .restored editor

theorem Made.fresh (made : snapshot.Made) : snapshot.Fresh := by
  cases made with
  | initial => exact fresh_revalidated _
  | ofFormula formula => exact fresh_revalidated _
  | read taken =>
      obtain ⟨formula, -, rfl⟩ := read_eq_ok_iff.mp taken
      exact fresh_revalidated _
  | restored editor => exact fresh_revalidated _

theorem editor_applyAll (snapshot : Snapshot) (edits : List Edit) :
    (snapshot.applyAll edits).editor = snapshot.editor.applyAll edits := by
  induction edits generalizing snapshot with
  | nil => rfl
  | cons edit edits ih =>
      rw [applyAll_cons, ih]
      rfl

/-- An edit is followed by a check, whatever the snapshot was before. -/
theorem fresh_apply (snapshot : Snapshot) (edit : Edit) : (snapshot.apply edit).Fresh :=
  fresh_revalidated _

/-- A fresh snapshot stays fresh in a run of edits. -/
theorem Fresh.applyAll (fresh : snapshot.Fresh) (edits : List Edit) :
    (snapshot.applyAll edits).Fresh := by
  induction edits generalizing snapshot with
  | nil => exact fresh
  | cons edit edits ih => exact ih (snapshot.fresh_apply edit)

/-- The last edit of every input wins, and validity is always that of the formula. In particular,
edits of different inputs can be done in any order. -/
theorem held_of_made (made : start.Made) (edits : List Edit) :
    (∀ input, (start.applyAll edits).editor.held input =
      (Edit.ofInput input edits).getLast?.getD (start.editor.held input)) ∧
    (start.applyAll edits).problems = (ofFormula (start.applyAll edits).formula).problems ∧
    ((start.applyAll edits).isValid = true ↔ (start.applyAll edits).problems = []) ∧
    ∀ others, (∀ input, Edit.ofInput input edits = Edit.ofInput input others) →
      start.applyAll edits = start.applyAll others := by
  have fresh := made.fresh.applyAll edits
  refine ⟨?held, fresh.problems_eq, fresh.isValid_iff, ?order⟩
  case held =>
    intro input
    rw [editor_applyAll, Editor.held_applyAll]
  case order =>
    intro others same
    apply fresh.eq_of_editor (made.fresh.applyAll others)
    rw [editor_applyAll, editor_applyAll, Editor.applyAll_eq_of_ofInput same]

/-- The minutes are written twice and the base in between, which may also come last. -/
theorem held_of_interleaved :
    (initial.applyAll [.offsetMinutes 5, .baseTime "", .offsetMinutes 7]).editor.held .offsetMinutes
        = .offsetMinutes 7 ∧
      (initial.applyAll [.offsetMinutes 5, .baseTime "", .offsetMinutes 7]).isValid ≠ true ∧
      initial.applyAll [.offsetMinutes 5, .baseTime "", .offsetMinutes 7] =
        initial.applyAll [.offsetMinutes 5, .offsetMinutes 7, .baseTime ""] := by
  obtain ⟨held, problems, valid, order⟩ :=
    held_of_made .initial [.offsetMinutes 5, .baseTime "", .offsetMinutes 7]
  refine ⟨held .offsetMinutes, ?_, order _ fun input => by cases input <;> rfl⟩
  rw [ne_eq, valid, problems]
  decide

end Snapshot

end Zmanim
