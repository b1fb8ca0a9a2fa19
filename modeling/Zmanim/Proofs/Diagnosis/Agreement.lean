import Zmanim.Editor.Snapshot
import Zmanim.Proofs.Diagnosis.Marker
import Zmanim.Proofs.Formula.Recognition
/-! Reading against diagnosing. -/

namespace Zmanim
open Text

theorem else_not_mem_nameTokens {name : String} (free : name ∉ keywords) :
    .name "else" ∉ nameTokens name := by
  intro member
  obtain rfl : "else" = name := by simpa [nameTokens] using member
  exact free (by decide)

theorem isSign_eq_false_of_mem_nameTokens {token : Token} {name : String}
    (member : token ∈ nameTokens name) : token.isSign = false := by
  simp only [nameTokens, List.mem_cons, List.not_mem_nil, or_false] at member
  rcases member with rfl | rfl <;> rfl

/-- The tokens of a formula have no marker. -/
theorem Formula.Recognized.unmarked {formula : Formula} {placed : List PlacedToken}
    (recognized : formula.Recognized placed) : Unmarked placed := by
  cases recognized with
  | solar direction same =>
      refine unmarked_of_tokens same ?_ (by simp [Token.isSign]) ?_
      · cases direction <;> simp [SolarDirection.token]
      · simp [formulaFunctions]
  | standard day same =>
      refine unmarked_of_tokens same ?_ (by simp [Token.isSign]) ?_
      · cases day <;> simp [StandardDay.token]
      · simp [formulaFunctions]
  | custom _ _ same =>
      refine unmarked_of_tokens same (by simp) (by simp [Token.isSign]) fun name calls => ?_
      obtain rfl | rfl : "proportional_hours" = name ∨ "custom" = name := by simpa using calls
      · decide
      · decide
  | @offset base sign number unit name side digits member free mark amount _ word _ =>
      have kinds : [base, sign, number, unit].map PlacedToken.token =
          [base.token, .sign side, .number ⟨digits, []⟩, .name "min"] := by
        rw [← mark, ← amount, ← word]
        rfl
      have noElse : .name "else" ≠ base.token := fun same =>
        else_not_mem_nameTokens free (same ▸ member)
      have one : base.token.isSign = false := isSign_eq_false_of_mem_nameTokens member
      have few :
          [base.token, .sign side, .number ⟨digits, []⟩, .name "min"].countP Token.isSign ≤ 1 := by
        rw [List.countP_cons_of_neg (by simp [one])]
        exact Nat.le_refl 1
      exact unmarked_of_tokens kinds (by simp [noElse]) few (by simp)
  | @fixedZman placed name member free =>
      have noElse : .name "else" ≠ placed.token := fun same =>
        else_not_mem_nameTokens free (same ▸ member)
      have none : placed.token.isSign = false := isSign_eq_false_of_mem_nameTokens member
      have kinds : [placed].map PlacedToken.token = [placed.token] := rfl
      exact unmarked_of_tokens kinds (by simp [noElse]) (by simp [none]) (by simp)

/-- A text that is read as a formula has no marker. -/
theorem unmarked_of_read {formula : Formula} {text : String}
    (read : Formula.read text = .ok formula) : Unmarked (placedTokens text.toList) :=
  (SameMarkers.of_trim _).unmarked (Formula.recognized_of_read read).unmarked

namespace Rejection

variable {text : String} {rejection : Rejection}

/-- Wherever its place is, the rejection of a text has the reason of its diagnosis and an
explanation. -/
theorem reason_classified (source : List Char) (furthest : Option Stop) :
    (classified source furthest).reason = some (Diagnosis.ofText source).reason ∧
      (classified source furthest).details.isSome = true := by
  unfold classified
  dsimp only
  split
  · exact ⟨rfl, rfl⟩
  · split <;> exact ⟨rfl, rfl⟩
  · exact ⟨rfl, rfl⟩

theorem reason_ofTrimmed (source : List Char) :
    (ofTrimmed source).reason = some (Diagnosis.ofText source).reason ∧
      (ofTrimmed source).details.isSome = true :=
  reason_classified source _

/-- A text that is not blank is rejected for the reason of its diagnosis. -/
theorem reason_of_read (read : Formula.read text = .error rejection)
    (solid : trim text.toList ≠ []) :
    rejection.reason = some (Diagnosis.ofText text.toList).reason := by
  unfold Formula.read at read
  split at read
  · contradiction
  · rename_i shape
    split at read
    · simp at read
    · obtain rfl := Except.error.inj read
      rw [(reason_ofTrimmed _).1, ← shape, Diagnosis.reason_ofText_trim]

end Rejection

/-- A text is rejected for a reason that its diagnosis gives too. -/
def RejectedFor (text : String) (reason : Reason) : Prop :=
  (Diagnosis.ofText text.toList).reason = reason ∧
    ∃ rejection, Formula.read text = .error rejection ∧ Snapshot.read text = .error rejection ∧
      rejection.reason = some reason

/-- A text with a marker is rejected for the reason of its diagnosis. -/
theorem rejectedFor_of_marked {text : String} (marked : ¬ Unmarked (placedTokens text.toList)) :
    RejectedFor text (Diagnosis.ofText text.toList).reason := by
  have solid : trim text.toList ≠ [] := by
    intro blank
    refine marked ((SameMarkers.of_trim _).unmarked ?_)
    rw [blank]
    exact unmarked_of_tokens rfl (by simp [placedTokens]) (by simp [placedTokens])
      (by simp [placedTokens])
  cases read : Formula.read text with
  | ok formula => exact absurd (unmarked_of_read read) marked
  | error rejection =>
      exact ⟨rfl, rejection, read, Snapshot.read_eq_error_iff.mpr read,
        Rejection.reason_of_read read solid⟩

namespace Diagnosis

/-- Reading and diagnosing never contradict each other. A formula has unknown syntax, which is the
lack of every marker, and any marker has the text rejected for the reason of its diagnosis. -/
theorem agrees_with_read (text : String) :
    (∀ formula, Formula.read text = .ok formula → (ofText text.toList).reason = .unknownSyntax) ∧
    ((ofText text.toList).reason = .unknownSyntax ↔ Unmarked (placedTokens text.toList)) ∧
    (¬ Unmarked (placedTokens text.toList) → RejectedFor text (ofText text.toList).reason) := by
  have unknown : (ofText text.toList).reason = .unknownSyntax ↔
      Unmarked (placedTokens text.toList) :=
    Finding.reason_ofTokens?_eq_unknownSyntax_iff
  exact ⟨fun formula read => unknown.mpr (unmarked_of_read read), unknown, rejectedFor_of_marked⟩

/-- A time may be named like a function of the engine, but a call of the function is a marker. -/
theorem agrees_with_read_midpoint :
    (ofText "@midpoint".toList).reason = .unknownSyntax ∧
      RejectedFor "midpoint(dawn, noon)" .midpoint := by
  have called : (ofText "midpoint(dawn, noon)".toList).reason = .midpoint := by decide +kernel
  have marked : ¬ Unmarked (placedTokens "midpoint(dawn, noon)".toList) := by
    rw [← (agrees_with_read _).2.1, called]
    decide
  have rejected := (agrees_with_read _).2.2 marked
  rw [called] at rejected
  exact ⟨(agrees_with_read "@midpoint").1 (.fixedZman "midpoint") rfl, rejected⟩

variable {before after text : List Char} {name : String}

theorem reason_of_conditional (marker : .name "else" ∈ tokens text ∨ Calls "if" (tokens text)) :
    (ofText text).reason = .conditional := by
  rw [ofText, Finding.reason_ofTokens?, if_pos (Finding.conditional?_isSome_iff.mpr marker)]

theorem reason_of_midpoint (calls : Calls "midpoint" (tokens text)) :
    (ofText text).reason ∈ [.conditional, .midpoint] := by
  rw [ofText, Finding.reason_ofTokens?]
  split
  · simp
  · rw [if_pos (Finding.midpoint?_isSome_iff.mpr calls)]
    simp

/-- A call that no formula makes is a marker, though others may come first. -/
theorem reason_of_call (foreign : name ∉ formulaFunctions) (calls : Calls name (tokens text)) :
    (ofText text).reason ∈ [.conditional, .midpoint, .chainedOperations, .unknownFunction] := by
  have marked : (ofText text).reason ≠ .unknownSyntax := fun unknown =>
    foreign ((Finding.reason_ofTokens?_eq_unknownSyntax_iff.mp unknown).ownCalls name calls)
  cases reason : (ofText text).reason with
  | unknownSyntax => exact absurd reason marked
  | _ => simp

/-- A blank cuts a text into tokens, so what stands before it does not change the word after it. -/
theorem tokens_word (shaped : NameShaped name) (stops : Stops isNamePart after) :
    tokens (before ++ ' ' :: (name.toList ++ after)) =
      tokens before ++ .name name :: tokens after := by
  have blank : Stops Token.isInner (' ' :: (name.toList ++ after)) := stops_cons.mpr rfl
  have word : tokens (name.toList ++ after) = .name name :: tokens after :=
    @tokens_spelling after (.name name) shaped stops
  rw [tokens_append blank, tokens_space, word]

/-- A word that a round bracket follows is called, also behind a gap. -/
theorem calls_of_word {gap : List Char} (shaped : NameShaped name) (blank : Run isGap gap) :
    Calls name (tokens (before ++ ' ' :: (name.toList ++ (gap ++ '(' :: after)))) := by
  have outside : Stops isNamePart ('(' :: after) := stops_cons.mpr rfl
  have stops := outside.behind_gap blank fun _ => isNamePart_eq_false_of_isGap
  have bracket : tokens ('(' :: after) = .opening .round :: tokens after :=
    tokens_character rfl rfl (by decide)
  rw [tokens_word shaped stops, tokens_run blank, bracket]
  exact ⟨tokens before, tokens after, by simp⟩

theorem rejectedFor_of_reason {text : String} {reason : Reason}
    (same : (ofText text.toList).reason = reason) (other : reason ≠ .unknownSyntax) :
    RejectedFor text reason := by
  subst same
  exact rejectedFor_of_marked (mt Finding.reason_ofTokens?_eq_unknownSyntax_iff.mpr other)

theorem exists_rejectedFor {text : String} {reasons : List Reason}
    (early : (ofText text.toList).reason ∈ reasons) (others : .unknownSyntax ∉ reasons) :
    ∃ reason ∈ reasons, RejectedFor text reason :=
  ⟨_, early, rejectedFor_of_reason rfl fun unknown => others (unknown ▸ early)⟩

/-- A marker after a blank has the text rejected, for a reason that comes no later in the order of
precedence than the marker, whatever stands before and after it. -/
theorem rejectedFor_of_marker (before after : String) :
    RejectedFor (before ++ " if(" ++ after) .conditional ∧
    RejectedFor (before ++ " if (" ++ after) .conditional ∧
    RejectedFor (before ++ " else " ++ after) .conditional ∧
    (∃ reason ∈ [Reason.conditional, .midpoint],
      RejectedFor (before ++ " midpoint(" ++ after) reason) ∧
    ∀ name, NameShaped name → name ∉ formulaFunctions →
      ∃ reason ∈ [Reason.conditional, .midpoint, .chainedOperations, .unknownFunction],
        RejectedFor (before ++ " " ++ name ++ "(" ++ after) reason := by
  have ifScanned : scanName ['i', 'f'] = some (['i', 'f'], []) := rfl
  have ifShaped : NameShaped "if" := nameShaped_of_scanName ifScanned
  have elseScanned : scanName ['e', 'l', 's', 'e'] = some (['e', 'l', 's', 'e'], []) := rfl
  have elseShaped : NameShaped "else" := nameShaped_of_scanName elseScanned
  have midpointShaped : NameShaped "midpoint" := nameShaped_of_isIdentifier (by decide)
  refine ⟨?glued, ?spaced, ?other, ?midpoint, ?call⟩
  case glued =>
    have calls : Calls "if" (tokens (before ++ " if(" ++ after).toList) := by
      simpa using @calls_of_word before.toList after.toList _ [] ifShaped run_nil
    exact rejectedFor_of_reason (reason_of_conditional (.inr calls)) nofun
  case spaced =>
    have calls : Calls "if" (tokens (before ++ " if (" ++ after).toList) := by
      simpa using @calls_of_word before.toList after.toList _ _ ifShaped run_space
    exact rejectedFor_of_reason (reason_of_conditional (.inr calls)) nofun
  case other =>
    have cut : tokens (before ++ " else " ++ after).toList =
        tokens before.toList ++ .name "else" :: tokens (' ' :: after.toList) := by
      simpa using @tokens_word before.toList (' ' :: after.toList) _ elseShaped (stops_cons.mpr rfl)
    have member : .name "else" ∈ tokens (before ++ " else " ++ after).toList := by
      rw [cut]
      exact List.mem_append_right _ List.mem_cons_self
    exact rejectedFor_of_reason (reason_of_conditional (.inl member)) nofun
  case midpoint =>
    have calls : Calls "midpoint" (tokens (before ++ " midpoint(" ++ after).toList) := by
      simpa using @calls_of_word before.toList after.toList _ [] midpointShaped run_nil
    exact exists_rejectedFor (reason_of_midpoint calls) (by decide)
  case call =>
    intro name shaped foreign
    have calls : Calls name (tokens (before ++ " " ++ name ++ "(" ++ after).toList) := by
      simpa using @calls_of_word before.toList after.toList _ [] shaped run_nil
    exact exists_rejectedFor (reason_of_call foreign calls) (by decide)

/-- Neither an open bracket nor half a token before the blank hides a call. -/
theorem rejectedFor_of_firstValid :
    ∃ reason ∈ [Reason.conditional, .midpoint, .chainedOperations, .unknownFunction],
      RejectedFor ("(1. @" ++ " " ++ "first_valid" ++ "(" ++ ", dawn") reason :=
  (rejectedFor_of_marker "(1. @" ", dawn").2.2.2.2 "first_valid"
    (nameShaped_of_isIdentifier (by decide)) (by decide)

end Diagnosis

end Zmanim
