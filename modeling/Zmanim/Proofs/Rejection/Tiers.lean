import Zmanim.Proofs.Diagnosis.Agreement
import Zmanim.Proofs.Rejection.Excerpt
/-! The two tiers of rejections. -/

namespace Zmanim
open Text

namespace Rejection

variable {source before left : List Char} {rejection : Rejection} {diagnosis : Diagnosis}

/-- A rejection explains a diagnosis when it has the reason, an explanation and a place with a
caret. -/
structure Explains (rejection : Rejection) (diagnosis : Diagnosis) : Prop where
  reason : rejection.reason = some diagnosis.reason
  details : rejection.details.isSome = true
  line : 1 ≤ rejection.line
  column : 1 ≤ rejection.column
  caret : '^' ∈ rejection.pointer.toList

/-- The place of a rejection comes from the blamed token, or from a stop when the syntax is unknown
and no token is blamed. -/
def Located (source : List Char) : Prop :=
  (Diagnosis.ofText source).span.isSome = true ∨
    (Diagnosis.ofText source).reason = .unknownSyntax ∧
      (Form.furthestStop? Form.all source).isSome = true

/-- A rejection that marks a place has a place with a caret. -/
theorem Marks.explains {width : Nat} (marks : rejection.Marks before left width)
    (reason : rejection.reason = some diagnosis.reason)
    (details : rejection.details.isSome = true) : rejection.Explains diagnosis where
  reason := reason
  details := details
  line := marks.line ▸ Nat.le_add_right 1 _
  column := marks.column ▸ Nat.le_add_right 1 _
  caret := by
    rw [marks.pointer, String.toList_ofList, List.mem_append, List.mem_replicate, List.mem_replicate]
    exact .inr ⟨Nat.ne_of_gt marks.caret, rfl⟩

/-- Every text that is no formula is located: no form takes it, so that the forms have a furthest
stop, and without a token to blame its syntax is unknown. -/
theorem located_of_ofTrimmed? (untaken : Formula.ofTrimmed? source = none) : Located source := by
  obtain ⟨stop, stopped, -⟩ := Form.exists_furthestStop? untaken
  unfold Located
  rw [stopped, Diagnosis.ofText]
  cases Finding.ofTokens? (placedTokens source) with
  | some finding => exact .inl rfl
  | none => exact .inr ⟨rfl, rfl⟩

/-- A rejection without a place does not explain anything. -/
theorem Explains.ne_advanced (explains : rejection.Explains diagnosis) (reason : Reason)
    (details : String) : rejection ≠ advanced reason details := by
  rintro rfl
  exact absurd explains.line (Nat.not_succ_le_zero 0)

/-- A text that no form takes is rejected with an explanation of its diagnosis. -/
theorem explains_ofTrimmed (untaken : Formula.ofTrimmed? source = none) (nonempty : source ≠ [])
    (last : Stops isBlank source.reverse) :
    (ofTrimmed source).Explains (Diagnosis.ofText source) := by
  have marks : ∃ before left width, (ofTrimmed source).Marks before left width := by
    rcases ofTrimmed_cases untaken nonempty last with
      ⟨_, before, left, -, -, token⟩ | ⟨-, before, left, -, marks⟩
    · exact ⟨before, left, _, token.marks⟩
    · exact ⟨before, left, 1, marks⟩
  obtain ⟨before, left, width, marks⟩ := marks
  have explained := reason_ofTrimmed source
  exact marks.explains explained.1 explained.2

/-- There are two tiers of rejections. A blank text is rejected as empty; any other text is rejected
for the reason of its diagnosis, with an explanation and a place, and never without a place. -/
theorem explains_of_read (text : String) :
    (Run isBlank text.toList →
      Formula.read text = .error .empty ∧ Snapshot.read text = .error .empty) ∧
    ∀ rejection, Formula.read text = .error rejection ∨ Snapshot.read text = .error rejection →
      (¬ Run isBlank text.toList →
        rejection.Explains (Diagnosis.ofText (trim text.toList)) ∧ Located (trim text.toList) ∧
          ∀ reason details, rejection ≠ advanced reason details) ∧
      (rejection.isAdvanced = false ↔ Run isBlank text.toList) := by
  refine ⟨fun blank => ?blank, fun rejection failed => ?rejected⟩
  case blank =>
    have read := Formula.read_of_blank blank
    exact ⟨read, Snapshot.read_eq_error_iff.mpr read⟩
  case rejected =>
    have read : Formula.read text = .error rejection :=
      failed.elim id Snapshot.read_eq_error_iff.mp
    have explains : ¬ Run isBlank text.toList →
        rejection.Explains (Diagnosis.ofText (trim text.toList)) ∧ Located (trim text.toList) := by
      intro solid
      obtain ⟨untaken, rfl⟩ := (Formula.read_eq_error_iff solid).mp read
      have last := (trimmed_trim text.toList).last
      exact ⟨explains_ofTrimmed untaken (mt trim_eq_nil_iff.mp solid) last,
        located_of_ofTrimmed? untaken⟩
    refine ⟨fun solid => ?_, ?_⟩
    · obtain ⟨explained, located⟩ := explains solid
      exact ⟨explained, located, explained.ne_advanced⟩
    · by_cases blank : Run isBlank text.toList
      · obtain rfl := Except.error.inj (read.symm.trans (Formula.read_of_blank blank))
        exact ⟨fun _ => blank, fun _ => rfl⟩
      · obtain ⟨explained, -⟩ := explains blank
        simp [isAdvanced, explained.reason, blank]

/-- A text of wide blanks is empty, and an offset without its minutes is explained. -/
theorem explains_of_lonelySign :
    Formula.read "\u3000\t" = .error .empty ∧
      (ofTrimmed "dawn +".toList).Explains (Diagnosis.ofText (trim "dawn +".toList)) := by
  have blank : Run isBlank "\u3000\t".toList := List.all_eq_true.mp rfl
  have solid : ¬ Run isBlank "dawn +".toList := fun blank =>
    absurd (blank 'd' (by decide)) (by decide)
  exact ⟨((explains_of_read "\u3000\t").1 blank).1,
    (((explains_of_read "dawn +").2 (ofTrimmed "dawn +".toList) (.inl rfl)).1 solid).1⟩

end Rejection

end Zmanim
