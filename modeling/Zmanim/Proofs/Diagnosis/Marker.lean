import Mathlib.Data.List.Infix
import Zmanim.Diagnosis
import Zmanim.Proofs.Token.Shift
/-! Markers in tokens. -/

namespace Zmanim
open Text

/-- A name is called when a round bracket comes right after it. -/
def Calls (name : String) (tokens : List Token) : Prop := [.name name, .opening .round] <:+: tokens

instance (name : String) (tokens : List Token) : Decidable (Calls name tokens) :=
  inferInstanceAs (Decidable (_ <:+: _))

@[simp] theorem not_calls_nil {name : String} : ¬ Calls name [] := by
  simp [Calls]

@[simp] theorem calls_cons_iff {name : String} {first : Token} {tokens : List Token} :
    Calls name (first :: tokens) ↔
      (first = .name name ∧ tokens.head? = some (.opening .round)) ∨ Calls name tokens := by
  have here : [.name name, .opening .round] <+: first :: tokens ↔
      first = .name name ∧ tokens.head? = some (.opening .round) := by
    cases tokens <;> simp [List.cons_prefix_cons, eq_comm]
  rw [Calls, List.infix_cons_iff, here, Calls]

/-- No token is a marker of a text that only the engine may understand. -/
structure Unmarked (placed : List PlacedToken) : Prop where
  noElse : .name "else" ∉ placed.map PlacedToken.token
  noIf : ¬ Calls "if" (placed.map PlacedToken.token)
  noMidpoint : ¬ Calls "midpoint" (placed.map PlacedToken.token)
  oneSign : (Finding.topLevelSigns 0 placed).length ≤ 1
  ownCalls : ∀ name, Calls name (placed.map PlacedToken.token) → name ∈ formulaFunctions

namespace Finding

variable {look : PlacedToken → List PlacedToken → Option Finding} {tokens : List PlacedToken}
  {finding : Finding} {name : String}

/-- What holds of a token and those after it holds at the first token or further on. -/
theorem exists_suffix_cons_iff {holds : PlacedToken → List PlacedToken → Prop}
    {first : PlacedToken} :
    (∃ placed rest, placed :: rest <:+ first :: tokens ∧ holds placed rest) ↔
      holds first tokens ∨ ∃ placed rest, placed :: rest <:+ tokens ∧ holds placed rest := by
  constructor
  · rintro ⟨placed, rest, within, found⟩
    rcases List.suffix_cons_iff.mp within with same | tail
    · obtain ⟨rfl, rfl⟩ := List.cons.inj same
      exact .inl found
    · exact .inr ⟨placed, rest, tail, found⟩
  · rintro (found | ⟨placed, rest, tail, found⟩)
    · exact ⟨first, tokens, List.suffix_rfl, found⟩
    · exact ⟨placed, rest, tail.trans (List.suffix_cons first tokens), found⟩

/-- A look finds something exactly when it does so at some token and the tokens after it. -/
theorem first?_isSome_iff :
    (first? look tokens).isSome = true ↔
      ∃ placed rest, placed :: rest <:+ tokens ∧ (look placed rest).isSome = true := by
  induction tokens with
  | nil => simp [first?]
  | cons first others ih =>
      rw [exists_suffix_cons_iff, ← ih, first?, Option.isSome_or, Bool.or_eq_true]

theorem mem_iff {kind : Token} :
    kind ∈ tokens.map PlacedToken.token ↔
      ∃ placed rest, placed :: rest <:+ tokens ∧ placed.token = kind := by
  induction tokens with
  | nil => simp
  | cons first others ih =>
      rw [exists_suffix_cons_iff, ← ih, List.map_cons, List.mem_cons, eq_comm]

theorem calls_iff :
    Calls name (tokens.map PlacedToken.token) ↔
      ∃ placed rest, placed :: rest <:+ tokens ∧ placed.token = .name name ∧
        opensCall rest = true := by
  induction tokens with
  | nil => simp [Calls]
  | cons first others ih =>
      have opens : opensCall others = true ↔
          (others.map PlacedToken.token).head? = some (.opening .round) := by
        cases others <;> simp [opensCall]
      rw [exists_suffix_cons_iff, ← ih, List.map_cons, calls_cons_iff, opens]

theorem conditional?_isSome_iff :
    (conditional? tokens).isSome = true ↔
      .name "else" ∈ tokens.map PlacedToken.token ∨
        Calls "if" (tokens.map PlacedToken.token) := by
  rw [conditional?, first?_isSome_iff, mem_iff, calls_iff]
  simp only [Option.isSome_ite, and_or_left, exists_or]

theorem midpoint?_isSome_iff :
    (midpoint? tokens).isSome = true ↔ Calls "midpoint" (tokens.map PlacedToken.token) := by
  rw [midpoint?, first?_isSome_iff, calls_iff]
  simp only [Option.isSome_ite]

theorem chained?_isSome_iff :
    (chained? tokens).isSome = true ↔ 1 < (topLevelSigns 0 tokens).length := by
  unfold chained?
  rcases topLevelSigns 0 tokens with _ | ⟨first, _ | ⟨second, others⟩⟩ <;> simp

theorem call?_isSome_iff :
    (call? tokens).isSome = true ↔
      ∃ name, name ∉ formulaFunctions ∧ Calls name (tokens.map PlacedToken.token) := by
  simp only [call?, first?_isSome_iff, calls_iff]
  constructor
  · rintro ⟨placed, rest, within, found⟩
    split at found
    · rename_i name same
      obtain ⟨opens, foreign⟩ := by simpa only [Option.isSome_ite] using found
      exact ⟨name, foreign, placed, rest, within, same, opens⟩
    · simp at found
  · rintro ⟨name, foreign, placed, rest, within, same, opens⟩
    exact ⟨placed, rest, within, by simp [same, opens, foreign]⟩

/-- All findings of a look have the same reason. -/
def Gives (reason : Reason) (found : Option Finding) : Prop :=
  ∀ finding ∈ found, finding.obstacle.reason = reason

variable {reason : Reason} {found others : Option Finding}

theorem gives_none : Gives reason none := nofun

theorem gives_some {obstacle : Obstacle} (placed : PlacedToken) :
    Gives obstacle.reason (some ⟨obstacle, placed⟩) := by
  rintro _ ⟨⟩
  rfl

theorem gives_ite {obstacle : Obstacle} (placed : PlacedToken) (holds : Prop) [Decidable holds] :
    Gives obstacle.reason (if holds then some ⟨obstacle, placed⟩ else none) := by
  split
  · exact gives_some placed
  · exact gives_none

theorem Gives.or (first : Gives reason found) (second : Gives reason others) :
    Gives reason (found.or others) := by
  cases found with
  | none => exact second
  | some finding => exact first

theorem gives_first? (same : ∀ placed rest, Gives reason (look placed rest)) :
    Gives reason (first? look tokens) := by
  induction tokens with
  | nil => exact gives_none
  | cons placed rest ih => exact (same placed rest).or ih

theorem gives_conditional? : Gives .conditional (conditional? tokens) :=
  gives_first? fun placed _ => gives_ite placed _

theorem gives_midpoint? : Gives .midpoint (midpoint? tokens) :=
  gives_first? fun placed _ => gives_ite placed _

theorem gives_chained? : Gives .chainedOperations (chained? tokens) := by
  unfold chained?
  split
  · exact gives_some _
  · exact gives_none

theorem gives_call? : Gives .unknownFunction (call? tokens) :=
  gives_first? fun placed _ => by
    split
    · exact gives_ite placed _
    · exact gives_none

theorem gives_engineWord? : Gives .unknownSyntax (engineWord? tokens) :=
  gives_first? fun placed _ => by
    split
    · split
      · exact gives_some placed
      · exact gives_ite placed _
    · exact gives_none

theorem gives_signedAngle? : Gives .unknownSyntax (signedAngle? tokens) :=
  gives_first? fun placed _ => by
    split
    · split
      · exact gives_ite _ _
      · exact gives_none
    · exact gives_none

theorem gives_durationUnit? : Gives .unknownSyntax (durationUnit? tokens) :=
  gives_first? fun placed _ => by
    split
    · split
      · exact gives_ite _ _
      · exact gives_none
    · exact gives_none

theorem reason_ofFinding?_or (gives : Gives reason found) :
    (Diagnosis.ofFinding? (found.or others)).reason =
      if found.isSome then reason else (Diagnosis.ofFinding? others).reason := by
  cases found with
  | none => rfl
  | some finding => exact gives finding rfl

theorem reason_ofFinding? (gives : Gives .unknownSyntax found) :
    (Diagnosis.ofFinding? found).reason = .unknownSyntax := by
  cases found with
  | none => rfl
  | some finding => exact gives finding rfl

/-- The reason of a diagnosis is the first in the order of precedence. -/
theorem reason_ofTokens? (tokens : List PlacedToken) :
    (Diagnosis.ofFinding? (ofTokens? tokens)).reason =
      if (conditional? tokens).isSome then .conditional
      else if (midpoint? tokens).isSome then .midpoint
      else if (chained? tokens).isSome then .chainedOperations
      else if (call? tokens).isSome then .unknownFunction
      else .unknownSyntax := by
  unfold ofTokens?
  simp only [Option.or_assoc]
  rw [reason_ofFinding?_or gives_conditional?, reason_ofFinding?_or gives_midpoint?,
    reason_ofFinding?_or gives_chained?, reason_ofFinding?_or gives_call?,
    reason_ofFinding? (gives_engineWord?.or (gives_signedAngle?.or gives_durationUnit?))]

/-- No marker means that the syntax is unknown, and every marker outranks it. -/
theorem reason_ofTokens?_eq_unknownSyntax_iff :
    (Diagnosis.ofFinding? (ofTokens? tokens)).reason = .unknownSyntax ↔ Unmarked tokens := by
  have parts : Unmarked tokens ↔
      (conditional? tokens).isSome = false ∧ (midpoint? tokens).isSome = false ∧
        (chained? tokens).isSome = false ∧ (call? tokens).isSome = false := by
    simp only [← Bool.not_eq_true, conditional?_isSome_iff, midpoint?_isSome_iff,
      chained?_isSome_iff, call?_isSome_iff, not_or, not_exists, not_and', not_not, not_lt]
    constructor
    · rintro ⟨noElse, noIf, noMidpoint, oneSign, ownCalls⟩
      exact ⟨⟨noElse, noIf⟩, noMidpoint, oneSign, ownCalls⟩
    · rintro ⟨⟨noElse, noIf⟩, noMidpoint, oneSign, ownCalls⟩
      exact ⟨noElse, noIf, noMidpoint, oneSign, ownCalls⟩
  rw [reason_ofTokens?, parts]
  cases (conditional? tokens).isSome <;> cases (midpoint? tokens).isSome <;>
    cases (chained? tokens).isSome <;> cases (call? tokens).isSome <;> decide

end Finding

/-- A sign stands between a time and what is added to it or taken from it. -/
def Token.isSign : Token → Bool
  | .sign _ => true
  | _ => false

/-- The signs outside all brackets are no more than all signs. -/
theorem Finding.length_topLevelSigns_le (depth : Nat) (placed : List PlacedToken) :
    (topLevelSigns depth placed).length ≤
      (placed.map PlacedToken.token).countP Token.isSign := by
  induction placed generalizing depth with
  | nil => simp [topLevelSigns]
  | cons first rest ih =>
      rw [List.map_cons, List.countP_cons]
      cases kind : first.token with
      | sign side =>
          have inside := ih depth
          simp only [topLevelSigns, kind, Token.isSign]
          split
          · exact Nat.succ_le_succ inside
          · exact Nat.le_succ_of_le inside
      | _ => simpa [topLevelSigns, kind, Token.isSign] using ih _

namespace Finding

variable {tokens : List PlacedToken} {placed : PlacedToken} {character : Char}

theorem topLevelSigns_cons_other (depth : Nat) (other : placed.token = .other character) :
    topLevelSigns depth (placed :: tokens) = topLevelSigns depth tokens := by
  simp only [topLevelSigns, other]

theorem topLevelSigns_concat_other (depth : Nat) (other : placed.token = .other character) :
    topLevelSigns depth (tokens ++ [placed]) = topLevelSigns depth tokens := by
  induction tokens generalizing depth with
  | nil => exact topLevelSigns_cons_other depth other
  | cons next rest ih => simp only [List.cons_append, topLevelSigns, ih]

end Finding

theorem unmarked_of_tokens {placed : List PlacedToken} {kinds : List Token}
    (same : placed.map PlacedToken.token = kinds) (noElse : .name "else" ∉ kinds)
    (oneSign : kinds.countP Token.isSign ≤ 1)
    (ownCalls : ∀ name, Calls name kinds → name ∈ formulaFunctions) : Unmarked placed := by
  subst same
  have signs := (Finding.length_topLevelSigns_le 0 placed).trans oneSign
  have foreign {name : String} (outside : name ∉ formulaFunctions) := mt (ownCalls name) outside
  exact ⟨noElse, foreign (by decide), foreign (by decide), signs, ownCalls⟩

/-- Two lists of tokens have the same markers. -/
structure SameMarkers (first second : List PlacedToken) : Prop where
  hasElse : .name "else" ∈ first.map PlacedToken.token ↔
    .name "else" ∈ second.map PlacedToken.token
  calls : ∀ name, Calls name (first.map PlacedToken.token) ↔
    Calls name (second.map PlacedToken.token)
  signs : (Finding.topLevelSigns 0 first).length = (Finding.topLevelSigns 0 second).length

namespace SameMarkers
open Finding

variable {first second third others : List PlacedToken} {placed : PlacedToken} {character : Char}

theorem refl (tokens : List PlacedToken) : SameMarkers tokens tokens :=
  ⟨Iff.rfl, fun _ => Iff.rfl, rfl⟩

theorem trans (left : SameMarkers first second) (right : SameMarkers second third) :
    SameMarkers first third :=
  ⟨left.hasElse.trans right.hasElse, fun name => (left.calls name).trans (right.calls name),
    left.signs.trans right.signs⟩

/-- The same markers have the same first reason. -/
theorem reason_eq (same : SameMarkers first second) :
    (Diagnosis.ofFinding? (ofTokens? first)).reason =
      (Diagnosis.ofFinding? (ofTokens? second)).reason := by
  have conditional : (conditional? first).isSome = (conditional? second).isSome :=
    Bool.eq_iff_iff.mpr (by simp only [conditional?_isSome_iff, same.hasElse, same.calls])
  have midpoint : (midpoint? first).isSome = (midpoint? second).isSome :=
    Bool.eq_iff_iff.mpr (by simp only [midpoint?_isSome_iff, same.calls])
  have chained : (chained? first).isSome = (chained? second).isSome :=
    Bool.eq_iff_iff.mpr (by simp only [chained?_isSome_iff, same.signs])
  have call : (call? first).isSome = (call? second).isSome :=
    Bool.eq_iff_iff.mpr (by simp only [call?_isSome_iff, same.calls])
  rw [reason_ofTokens?, reason_ofTokens?, conditional, midpoint, chained, call]

theorem unmarked (same : SameMarkers first second)
    (unmarked : Unmarked second) : Unmarked first where
  noElse := mt same.hasElse.mp unmarked.noElse
  noIf := mt (same.calls _).mp unmarked.noIf
  noMidpoint := mt (same.calls _).mp unmarked.noMidpoint
  oneSign := same.signs.trans_le unmarked.oneSign
  ownCalls name calls := unmarked.ownCalls name ((same.calls name).mp calls)

/-- Where a token stands does not matter to the number of signs. -/
theorem length_topLevelSigns_eq (depth : Nat)
    (same : first.map PlacedToken.token = second.map PlacedToken.token) :
    (topLevelSigns depth first).length = (topLevelSigns depth second).length := by
  induction first generalizing second depth with
  | nil => rw [List.map_eq_nil_iff.mp same.symm]
  | cons placed rest ih =>
      obtain ⟨other, others, rfl, kind, same⟩ := List.map_eq_cons_iff.mp same.symm
      have ih := fun depth => ih depth same.symm
      simp only [topLevelSigns, kind]
      split
      · exact ih _
      · exact ih _
      · split
        · simp [ih]
        · exact ih _
      · exact ih _

theorem of_map_token_eq (same : first.map PlacedToken.token = second.map PlacedToken.token) :
    SameMarkers first second :=
  ⟨by rw [same], fun _ => by rw [same], length_topLevelSigns_eq 0 same⟩

/-- A character outside the alphabet at the front changes no marker. -/
theorem cons_other (other : placed.token = .other character) :
    SameMarkers (placed :: first) first where
  hasElse := by simp [other]
  calls name := by simp [other]
  signs := by rw [topLevelSigns_cons_other 0 other]

/-- A character outside the alphabet at the end changes no marker. -/
theorem concat_other (other : placed.token = .other character) :
    SameMarkers (first ++ [placed]) first where
  hasElse := by simp [other]
  calls name := by
    have outside : ¬ [.name name, .opening .round] <:+
        first.map PlacedToken.token ++ [.other character] := by
      intro within
      rcases List.suffix_concat_iff.mp within with empty | ⟨_, same, -⟩
      · simp at empty
      · simpa using congrArg List.getLast? same
    rw [List.map_append, List.map_singleton, other, Calls, List.infix_concat_iff]
    simp [outside, Calls]
  signs := by rw [topLevelSigns_concat_other 0 other]

variable (plain : ∀ placed ∈ others, ∃ character, placed.token = .other character)

include plain in
theorem others_append : SameMarkers (others ++ first) first := by
  induction others with
  | nil => exact refl first
  | cons placed rest ih =>
      obtain ⟨⟨_, other⟩, plain⟩ := List.forall_mem_cons.mp plain
      exact (cons_other other).trans (ih plain)

include plain in
theorem append_others : SameMarkers (first ++ others) first := by
  induction others generalizing first with
  | nil => rw [List.append_nil]; exact refl first
  | cons placed rest ih =>
      obtain ⟨⟨_, other⟩, plain⟩ := List.forall_mem_cons.mp plain
      rw [List.append_cons]
      exact (ih plain).trans (concat_other other)

/-- Blanks at the ends of a text change no marker. -/
theorem of_trim (text : List Char) :
    SameMarkers (placedTokens text) (placedTokens (trim text)) := by
  obtain ⟨front, back, split, before, behind⟩ := exists_placedTokens_trim text
  rw [split]
  refine (others_append before).trans ((append_others behind).trans (of_map_token_eq ?_))
  rw [List.map_map]
  rfl

end SameMarkers

/-- A text is diagnosed for the same reason when the blanks at its ends are trimmed. -/
theorem Diagnosis.reason_ofText_trim (text : List Char) :
    (ofText (trim text)).reason = (ofText text).reason :=
  (SameMarkers.of_trim text).reason_eq.symm

end Zmanim
