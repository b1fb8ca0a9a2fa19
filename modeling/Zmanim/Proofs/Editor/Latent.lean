import Zmanim.Proofs.Editor.Run
/-! Latent inputs. -/

namespace Zmanim

/-- Edits that leave out an input do not write it. -/
theorem Edit.ofInput_eq_nil {input : Input} {edits : List Edit}
    (other : ∀ edit ∈ edits, edit.input ≠ input) : ofInput input edits = [] := by
  rw [ofInput, List.filter_eq_nil_iff]
  intro edit mem
  rw [decide_eq_true_eq]
  exact other edit mem

namespace Editor

variable {editor first second : Editor}

/-- The inputs that the chosen method reads. The endpoints of a day are read for a custom day
alone. -/
def readInputs (editor : Editor) : List Input :=
  match editor.method with
  | none => [.baseTime]
  | some .fixedZman => [.fixedZman]
  | some .solar => [.solarDegrees, .solarDirection]
  | some .fixedOffset => [.offsetBase, .offsetSide, .offsetMinutes]
  | some .proportional =>
      [.hours, .day] ++ match editor.day with
        | .standard _ => []
        | .custom => [.customStart, .customEnd]

/-- The day of an editor is made from the kind of day, and from the endpoints of a custom day. -/
theorem proportionalDay_eq_of_held (day : first.held .day = second.held .day)
    (ends : first.day = .custom →
      first.held .customStart = second.held .customStart ∧
        first.held .customEnd = second.held .customEnd) :
    first.proportionalDay = second.proportionalDay := by
  have kind := Edit.day.inj day
  unfold proportionalDay
  rw [← kind]
  cases chosen : first.day with
  | standard day => rfl
  | custom =>
      obtain ⟨start, finish⟩ := ends chosen
      exact congrArg₂ Day.custom (Edit.customStart.inj start) (Edit.customEnd.inj finish)

/-- The formula is made from the inputs that the chosen method reads. -/
theorem formula_eq_of_held (method : first.method = second.method)
    (same : ∀ input ∈ first.readInputs, first.held input = second.held input) :
    first.formula = second.formula := by
  unfold readInputs at same
  unfold formula
  rw [← method]
  cases chosen : first.method with
  | none =>
      simp only [chosen, List.forall_mem_singleton] at same
      exact congrArg Formula.baseTime (Edit.baseTime.inj same)
  | some chosenMethod =>
      cases chosenMethod with
      | fixedZman =>
          simp only [chosen, List.forall_mem_singleton] at same
          exact congrArg Formula.fixedZman (Edit.fixedZman.inj same)
      | solar =>
          simp only [chosen, List.forall_mem_cons] at same
          obtain ⟨degrees, direction, -⟩ := same
          exact congrArg₂ Formula.solar (Edit.solarDegrees.inj degrees)
            (Edit.solarDirection.inj direction)
      | fixedOffset =>
          simp only [chosen, List.forall_mem_cons] at same
          obtain ⟨base, side, minutes, -⟩ := same
          change Formula.offset first.offsetBase first.offsetSide first.offsetMinutes = _
          rw [Edit.offsetBase.inj base, Edit.offsetSide.inj side, Edit.offsetMinutes.inj minutes]
      | proportional =>
          simp only [chosen, List.forall_mem_append, List.forall_mem_cons] at same
          obtain ⟨⟨hours, day, -⟩, ends⟩ := same
          refine congrArg₂ Formula.proportional (Edit.hours.inj hours)
            (proportionalDay_eq_of_held day fun custom => ?_)
          rw [custom] at ends
          exact ⟨ends .customStart (by decide), ends .customEnd (by decide)⟩

/-- The choice of a method is not an input of any method. -/
theorem method_notMem_readInputs (editor : Editor) : Input.method ∉ editor.readInputs := by
  unfold readInputs
  cases editor.method with
  | none => simp
  | some method =>
      cases method with
      | proportional => cases editor.day <;> simp
      | _ => simp

/-- Edits of other inputs, and a return to the chosen method, lead to the same formula. -/
theorem formula_of_latent {edits : List Edit}
    (latent : ∀ edit ∈ edits, edit.input ∉ editor.readInputs) :
    ((editor.applyAll edits).apply (.method editor.method)).formula = editor.formula := by
  have method : editor.method =
      ((editor.applyAll edits).apply (.method editor.method)).method := rfl
  symm
  apply formula_eq_of_held method
  intro input read
  have other : Input.method ≠ input := fun same => editor.method_notMem_readInputs (same ▸ read)
  have unwritten : Edit.ofInput input edits = [] :=
    Edit.ofInput_eq_nil fun edit mem same => latent edit mem (same ▸ read)
  rw [held_apply, Edit.input, if_neg other, held_applyAll, unwritten]
  rfl

end Editor

namespace Snapshot

variable {snapshot : Snapshot}

/-- The snapshots that edits lead to. -/
inductive Reachable : Snapshot → Prop where
  | made {snapshot : Snapshot} : snapshot.Made → Reachable snapshot
  | apply {snapshot : Snapshot} (edit : Edit) : Reachable snapshot → Reachable (snapshot.apply edit)

theorem Reachable.applyAll (reachable : snapshot.Reachable) (edits : List Edit) :
    (snapshot.applyAll edits).Reachable := by
  induction edits generalizing snapshot with
  | nil => exact reachable
  | cons edit edits ih => exact ih (reachable.apply edit)

theorem Reachable.fresh (reachable : snapshot.Reachable) : snapshot.Fresh := by
  cases reachable with
  | made made => exact made.fresh
  | apply edit _ => exact fresh_apply _ edit

/-- What a snapshot shows of itself is its formula, the text of it, and its validity. -/
structure SameOutput (first second : Snapshot) : Prop where
  formula : first.formula = second.formula
  text : first.text = second.text
  problems : first.problems = second.problems
  isValid : first.isValid = second.isValid

/-- Fresh snapshots of one formula show the same. -/
theorem Fresh.sameOutput {other : Snapshot} (fresh : snapshot.Fresh) (again : other.Fresh)
    (same : snapshot.formula = other.formula) : snapshot.SameOutput other := by
  have problems : snapshot.problems = other.problems := by
    rw [fresh.problems_eq, again.problems_eq, same]
  refine ⟨same, congrArg Formula.text same, problems, ?_⟩
  rw [Bool.eq_iff_iff, fresh.isValid_iff, again.isValid_iff, problems]

/-- Inputs that the chosen method does not read are never seen, and they are never in the way: edits
of them leave everything that is shown as it was once the method is chosen again. -/
theorem sameOutput_of_reachable (reachable : snapshot.Reachable) :
    (∀ other : Snapshot, other.Reachable → other.formula = snapshot.formula →
      other.SameOutput snapshot) ∧
    (∀ edits, (∀ edit ∈ edits, edit.input ∉ snapshot.editor.readInputs) →
      ((snapshot.applyAll edits).apply (.method snapshot.editor.method)).SameOutput snapshot) ∧
    (∀ formula, (ofFormula formula).formula = formula) ∧
    (ofFormula snapshot.formula).SameOutput snapshot := by
  have fresh := reachable.fresh
  refine ⟨?formula, ?latent, formula_ofFormula, ?again⟩
  case formula =>
    intro other reached same
    exact reached.fresh.sameOutput fresh same
  case latent =>
    intro edits latent
    apply (fresh_apply _ _).sameOutput fresh
    have inputs := snapshot.editor_applyAll edits
    rw [formula, apply, revalidated, inputs]
    exact Editor.formula_of_latent latent
  case again =>
    exact (fresh_revalidated _).sameOutput fresh (formula_ofFormula _)

/-- The endpoints of a custom day are edited under another method while the day is a standard one. -/
theorem sameOutput_of_latentEndpoints :
    ((ofFormula (.proportional 3 (.standard .gra))).applyAll
        [.customStart (some "9"), .method none, .baseTime "", .customEnd none]).isValid = false ∧
      (((ofFormula (.proportional 3 (.standard .gra))).applyAll
        [.customStart (some "9"), .method none, .baseTime "", .customEnd none]).apply
          (.method (some .proportional))).SameOutput (ofFormula (.proportional 3 (.standard .gra))) :=
  ⟨by decide, (sameOutput_of_reachable (.made (.ofFormula _))).2.1 _ (by decide)⟩

end Snapshot

end Zmanim
