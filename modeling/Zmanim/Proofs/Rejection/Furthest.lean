import Zmanim.Proofs.Formula.Overlooked
import Zmanim.Proofs.Rejection.Excerpt
/-! Where a rejection points when no token is blamed. -/

namespace Zmanim
open Text

namespace Rejection

/-- A rejection points at a failure of the forms when it names its line and column, no failure lies
further, and the part that it expects there, if any, is the innermost of those that failed there. -/
structure PointsAt (rejection : Rejection) (source : List Char)
    (failures : Form → List Char → List Note) (failure : Note) : Prop where
  failed : ∃ form, failure ∈ failures form source
  furthest : ∀ form, ∀ other ∈ failures form source,
    (positionOf source other.left).offset ≤ (positionOf source failure.left).offset
  line : rejection.line = (positionOf source failure.left).line
  column : rejection.column = (positionOf source failure.left).column
  expected : rejection.details = some (Diagnosis.ofText source).details ∨
    ∃ form part, rejection.details = some ((Diagnosis.ofText source).details ++ "; expected " ++
        part.label ++ " at column " ++ Nat.repr (positionOf source failure.left).column) ∧
      ((failures form source).filter fun other => other.left = failure.left).findSome? Note.part? =
        some part

variable {source left : List Char} {form : Form} {failures : Form → List Char → List Note}

/-- A rejection at the stop of a form points at its failures when no others lie further, and the
others at the same place name no other part. -/
theorem pointsAt_atStop (settled : Settled left (form.kept source))
    (includes : ∀ note ∈ form.kept source, note ∈ failures form source)
    (furthest : ∀ other, ∀ failure ∈ failures other source, left.length ≤ failure.left.length)
    (named : ((failures form source).filter fun other => other.left = left).findSome? Note.part? =
      (form.kept source).findSome? Note.part?) :
    ∃ failure, (atStop (Diagnosis.ofText source) source
      ⟨left, (form.kept source).findSome? Note.part?⟩).PointsAt source failures failure := by
  obtain ⟨failure, member⟩ := List.exists_mem_of_ne_nil _ settled.nonempty
  obtain rfl := settled.place failure member
  refine ⟨failure, ⟨form, includes failure member⟩, fun other note passed =>
    offset_positionOf_le (furthest other note passed), rfl, rfl, ?_⟩
  cases expected : (form.kept source).findSome? Note.part? with
  | none => exact .inl rfl
  | some part => exact .inr ⟨form, part, rfl, named.trans expected⟩

/-- What a form recovers from names no part, so that the part of its stop is named by all failures
there. -/
theorem findSome?_filter_failures (settled : Settled left (form.kept source))
    (nameless : ∀ note ∈ form.watched.passed source, note.part? = none) :
    ((form.failures source).filter fun other => other.left = left).findSome? Note.part? =
      (form.kept source).findSome? Note.part? := by
  have passed : ((form.watched.passed source).filter fun other => other.left = left).findSome?
      Note.part? = none :=
    List.findSome?_eq_none_iff.mpr fun note member => nameless note (List.mem_of_mem_filter member)
  rw [Form.failures, List.filter_append, settled.filter_eq, List.findSome?_append, passed,
    Option.none_or]

section

variable (stops : Stops isGap source) (untaken : ∀ form : Form, form.read? source = none)
  (settled : Settled left (form.kept source))

include stops untaken settled

section

variable (least : ∀ (other : Form) place, Settled place (other.kept source) →
  left.length ≤ place.length)

include least

/-- The furthest stop is at the furthest of the failures that the forms end with. -/
theorem pointsAt_kept :
    ∃ failure, (atStop (Diagnosis.ofText source) source
      ⟨left, (form.kept source).findSome? Note.part?⟩).PointsAt source Form.kept failure := by
  refine pointsAt_atStop settled (fun _ member => member) (fun other failure member => ?_)
    (by rw [settled.filter_eq])
  obtain ⟨place, elsewhere, -⟩ := Form.exists_settled stops (untaken other)
  rw [elsewhere.place failure member]
  exact least other place elsewhere

/-- The furthest stop is at the furthest of all failures when none is overlooked. -/
theorem pointsAt_failures (sound : ¬ Form.Overlooks source) :
    ∃ failure, (atStop (Diagnosis.ofText source) source
      ⟨left, (form.kept source).findSome? Note.part?⟩).PointsAt source Form.failures failure := by
  refine pointsAt_atStop settled (fun _ member => List.mem_append_right _ member)
    (fun other failure member => ?_)
    (findSome?_filter_failures settled fun _ => Form.part?_of_passed stops sound)
  obtain ⟨place, elsewhere, -⟩ := Form.exists_settled stops (untaken other)
  refine Nat.le_trans (least other place elsewhere) ?_
  rcases List.mem_append.mp member with passed | kept
  · exact Form.length_le_of_passed stops sound (untaken other) elsewhere passed
  · exact Nat.le_of_eq (congrArg List.length (elsewhere.place failure kept).symm)

end

/-- A failure that is overlooked lies further than every stop of a form. -/
theorem not_pointsAt_of_overlooks {failure : Note} {diagnosis : Diagnosis}
    {expected : Option Expectation} (overlooks : Form.Overlooks source) :
    ¬ (atStop diagnosis source ⟨left, expected⟩).PointsAt source Form.failures failure := by
  rintro ⟨-, furthest, line, column, -⟩
  obtain ⟨other, note, passed, further⟩ := Form.exists_passed_of_overlooks stops overlooks
  have within : left.length ≤ source.length :=
    form.orderly_reader.length_le (Form.whole_eq_error (untaken form)) settled
  have beyond := offset_positionOf_lt (further form left (untaken form) settled) within
  have reached := furthest other note (List.mem_append_left _ passed)
  have place : positionOf source left = positionOf source failure.left :=
    positionOf_eq_of_place line column
  rw [← place] at reached
  exact Nat.not_le_of_lt beyond reached

end

/-- A rejection that blames no token points at the furthest of the failures that the forms end with,
and at the furthest of all their failures exactly when none is overlooked. -/
theorem pointsAt_failures_iff {text : String} {rejection : Rejection}
    (read : Snapshot.read text = .error rejection) (solid : ¬ Run isBlank text.toList)
    (unblamed : (Diagnosis.ofText (trim text.toList)).span = none) :
    (∃ failure, rejection.PointsAt (trim text.toList) Form.kept failure) ∧
      ((∃ failure, rejection.PointsAt (trim text.toList) Form.failures failure) ↔
        ¬ Form.Overlooks (trim text.toList)) := by
  obtain ⟨rejected, rfl⟩ :=
    (Formula.read_eq_error_iff solid).mp (Snapshot.read_eq_error_iff.mp read)
  have stops : Stops isGap (trim text.toList) := (trimmed_trim text.toList).first.isGap_of_isBlank
  have untaken (form : Form) : form.read? (trim text.toList) = none :=
    List.findSome?_eq_none_iff.mp rejected form form.mem_all
  have nothing : Finding.ofTokens? (placedTokens (trim text.toList)) = none := by
    cases found : Finding.ofTokens? (placedTokens (trim text.toList)) with
    | none => rfl
    | some finding =>
        rw [Diagnosis.ofText, found] at unblamed
        cases unblamed
  obtain ⟨form, left, settled, stopped, least⟩ := Form.exists_furthest_settled stops untaken
  rw [ofTrimmed_of_stop nothing stopped]
  refine ⟨pointsAt_kept stops untaken settled least, ?_,
    pointsAt_failures stops untaken settled least⟩
  rintro ⟨failure, points⟩ overlooks
  exact not_pointsAt_of_overlooks stops untaken settled overlooks points

/-- The unit of minutes is missing at the end of a text. -/
theorem pointsAt_failures_of_missingUnit :
    Snapshot.read "sunrise - 72" = .error (ofTrimmed "sunrise - 72".toList) ∧
      ∃ failure, (ofTrimmed "sunrise - 72".toList).PointsAt "sunrise - 72".toList Form.failures
        failure := by
  have read : Snapshot.read "sunrise - 72" = .error (ofTrimmed "sunrise - 72".toList) := rfl
  have solid : ¬ Run isBlank "sunrise - 72".toList := fun blank =>
    absurd (blank 's' (by decide)) (by decide)
  have unblamed : (Diagnosis.ofText (trim "sunrise - 72".toList)).span = none := by
    decide +kernel
  have uncalled : ¬ Form.Overlooks "sunrise - 72".toList := by
    refine Form.not_overlooks_of_unopened fun form call inner named opens => ?_
    have none : (Form.opened call "sunrise - 72".toList).toOption = none := by
      cases form with
      | solar =>
          obtain rfl := Option.some.inj named
          decide +kernel
      | proportional =>
          obtain rfl := Option.some.inj named
          decide +kernel
      | _ => exact absurd named nofun
    rw [opens] at none
    exact absurd none nofun
  exact ⟨read, (pointsAt_failures_iff read solid unblamed).2.mpr uncalled⟩

/-- A custom day without a second at sign fails behind its comma, but the rejection points at the
beginning of the day. -/
theorem not_pointsAt_failures_of_customEnd :
    ∃ rejection, Snapshot.read "proportional_hours(9.5, custom(@a, b))" = .error rejection ∧
      ¬ Run isBlank "proportional_hours(9.5, custom(@a, b))".toList ∧
      (Diagnosis.ofText (trim "proportional_hours(9.5, custom(@a, b))".toList)).span = none ∧
      ¬ ∃ failure, rejection.PointsAt (trim "proportional_hours(9.5, custom(@a, b))".toList)
        Form.failures failure := by
  refine ⟨ofTrimmed "proportional_hours(9.5, custom(@a, b))".toList, rfl,
    fun blank => absurd (blank 'p' (by decide)) (by decide), by decide +kernel, ?_⟩
  have solid : trim "proportional_hours(9.5, custom(@a, b))".toList =
      "proportional_hours(9.5, custom(@a, b))".toList := by decide +kernel
  rw [solid]
  rintro ⟨failure, -, furthest, line, column, -⟩
  have overlooked := furthest .proportional ⟨"b))".toList, .within .customEnd⟩ (by decide +kernel)
  have place : positionOf "proportional_hours(9.5, custom(@a, b))".toList failure.left =
      positionOf "proportional_hours(9.5, custom(@a, b))".toList "custom(@a, b))".toList :=
    positionOf_eq_of_place (line.symm.trans (by decide +kernel))
      (column.symm.trans (by decide +kernel))
  rw [place] at overlooked
  exact absurd overlooked (by decide +kernel)

end Rejection

end Zmanim
