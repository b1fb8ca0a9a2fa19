import Zmanim.Proofs.Diagnosis.Evidence
import Zmanim.Proofs.Text.Span
/-! Blamed tokens. -/

namespace Zmanim
open Text

namespace Finding

variable {tokens : List PlacedToken} {finding : Finding} {placed : PlacedToken}

/-- A finding shows its obstacle when it blames a token of that kind: the keyword, the name or the
sign in question, and the second sign outside all brackets when they are too many. -/
structure Shows (finding : Finding) (tokens : List PlacedToken) : Prop where
  member : finding.blamed ∈ tokens
  kind : match finding.obstacle with
    | .conditional => finding.blamed.token ∈ [.name "if", .name "else"]
    | .midpoint => finding.blamed.token = .name "midpoint"
    | .chained count =>
        finding.blamed.token.isSign = true ∧
          (topLevelSigns 0 tokens)[1]? = some finding.blamed ∧
          (topLevelSigns 0 tokens).length = count
    | .call name | .direction name | .base name | .durationUnit name =>
        finding.blamed.token = .name name
    | .signedAngle => finding.blamed.token.isSign = true

/-- The signs outside all brackets are signs among the tokens. -/
theorem mem_topLevelSigns {depth : Nat} (member : placed ∈ topLevelSigns depth tokens) :
    placed ∈ tokens ∧ placed.token.isSign = true := by
  induction tokens generalizing depth with
  | nil => simp [topLevelSigns] at member
  | cons first others ih =>
      rw [topLevelSigns_step] at member
      split at member
      · rename_i outside
        rcases List.mem_cons.mp member with rfl | member
        · exact ⟨List.mem_cons_self, outside.1⟩
        · exact (ih member).imp_left (List.mem_cons_of_mem first)
      · exact (ih member).imp_left (List.mem_cons_of_mem first)

/-- A token shows the obstacle that it has to be blamed for. -/
theorem Blames.shows (blames : finding.Blames tokens) : finding.Shows tokens := by
  obtain ⟨obstacle, blamed⟩ := finding
  cases obstacle with
  | conditional =>
      obtain ⟨_, _, within, branch⟩ := Earliest.exists_evidence blames
      cases branch with
      | otherwise keyword => exact ⟨within.subset List.mem_cons_self, by simp [keyword]⟩
      | condition keyword _ => exact ⟨within.subset List.mem_cons_self, by simp [keyword]⟩
  | midpoint =>
      obtain ⟨_, _, within, named, -⟩ := Earliest.exists_evidence blames
      exact ⟨within.subset List.mem_cons_self, named⟩
  | chained count =>
      obtain ⟨-, second, size⟩ := blames
      obtain ⟨member, sign⟩ := mem_topLevelSigns (List.mem_of_getElem? second)
      exact ⟨member, sign, second, size⟩
  | call name =>
      obtain ⟨_, _, within, named, -, -⟩ := Earliest.exists_evidence blames
      exact ⟨within.subset List.mem_cons_self, named⟩
  | direction name =>
      obtain ⟨_, _, within, word⟩ := Earliest.exists_evidence blames
      cases word with
      | direction named _ => exact ⟨within.subset List.mem_cons_self, named⟩
  | base name =>
      obtain ⟨_, _, within, word⟩ := Earliest.exists_evidence blames
      cases word with
      | base named _ => exact ⟨within.subset List.mem_cons_self, named⟩
  | signedAngle =>
      obtain ⟨_, _, within, -, -, signed⟩ := Earliest.exists_evidence blames.2
      exact ⟨within.subset (by simp), by rw [signed]; rfl⟩
  | durationUnit name =>
      obtain ⟨_, _, within, -, named, -, -⟩ := Earliest.exists_evidence blames.2.2
      exact ⟨within.subset (by simp), named⟩

theorem shows_of_ofTokens? (found : ofTokens? tokens = some finding) : finding.Shows tokens :=
  (blames_of_ofTokens? found).shows

/-- A blamed token is a name or a sign. -/
theorem Shows.name_or_sign (shown : finding.Shows tokens) :
    (∃ name, finding.blamed.token = .name name) ∨ finding.blamed.token.isSign = true := by
  obtain ⟨-, kind⟩ := shown
  cases obstacle : finding.obstacle with
  | conditional =>
      simp only [obstacle, List.mem_cons, List.not_mem_nil, or_false] at kind
      rcases kind with condition | other
      · exact .inl ⟨_, condition⟩
      · exact .inl ⟨_, other⟩
  | chained count =>
      simp only [obstacle] at kind
      exact .inr kind.1
  | signedAngle =>
      simp only [obstacle] at kind
      exact .inr kind
  | _ =>
      simp only [obstacle] at kind
      exact .inl ⟨_, kind⟩

/-- A blamed token of a text is spelled in plain characters. -/
theorem Shows.plain {text : List Char} (shown : finding.Shows (placedTokens text)) :
    Run isPlain finding.blamed.token.spelling := by
  have legible := legible_of_mem_placedTokensFrom shown.member
  rcases shown.name_or_sign with ⟨name, named⟩ | sign
  · rw [named] at legible ⊢
    exact (NameShaped.run legible).mono fun _ => isPlain_of_isNamePart
  · cases signed : finding.blamed.token with
    | sign side => cases side <;> exact List.all_eq_true.mp rfl
    | _ => simp [signed, Token.isSign] at sign

end Finding

/-- The word that the details of an obstacle quote. -/
def Obstacle.word? : Obstacle → Option String
  | .call name | .direction name | .base name | .durationUnit name => some name
  | _ => none

theorem Obstacle.exists_details {obstacle : Obstacle} {word : String}
    (quoted : word ∈ obstacle.word?) : ∃ front back, obstacle.details = front ++ word ++ back := by
  cases obstacle with
  | call name =>
      obtain rfl := Option.some.inj quoted
      by_cases known : Engine.functions.contains name = true
      · exact ⟨"", _, (if_pos known).trans (by rw [String.empty_append])⟩
      · exact ⟨"Unknown function '", "()'", if_neg known⟩
  | direction name =>
      obtain rfl := Option.some.inj quoted
      exact ⟨"Direction '", _, rfl⟩
  | base name =>
      obtain rfl := Option.some.inj quoted
      let bases := String.intercalate ", " (DayKind.all.map DayKind.token)
      have listed : (base name).details =
          "Base '" ++ name ++ "' is not one of the formula builder's bases (" ++ bases ++ ")" := rfl
      exact ⟨"Base '", _, by rw [listed, String.append_assoc, String.append_assoc]⟩
  | durationUnit name =>
      obtain rfl := Option.some.inj quoted
      exact ⟨"Duration unit '", _, rfl⟩
  | _ => cases quoted

/-- The word that the details quote is the blamed token. -/
theorem Finding.Shows.token_eq {tokens : List PlacedToken} {finding : Finding} {word : String}
    (shown : finding.Shows tokens) (quoted : word ∈ finding.obstacle.word?) :
    finding.blamed.token = .name word := by
  have kind := shown.kind
  cases obstacle : finding.obstacle with
  | call name | direction name | base name | durationUnit name =>
      rw [obstacle] at quoted
      simp only [obstacle] at kind
      obtain rfl := Option.some.inj quoted
      exact kind
  | _ =>
      rw [obstacle] at quoted
      cases quoted

namespace Diagnosis

/-- A diagnosis names the token of a finding when it has the span of the token, and its reason and
details are those of the obstacle; a word that the details quote is the token itself. -/
structure Names (diagnosis : Diagnosis) (text : List Char) (finding : Finding) : Prop where
  blames : finding.Blames (placedTokens text)
  span : diagnosis.span = some finding.blamed.span
  reason : diagnosis.reason = finding.obstacle.reason
  details : diagnosis.details = finding.obstacle.details
  quotes : ∀ word ∈ finding.obstacle.word?, finding.blamed.token = .name word ∧
    ∃ front back, diagnosis.details = front ++ word ++ back
  slice : ∃ before after, text = before ++ (finding.blamed.token.spelling ++ after) ∧
    finding.blamed.span.Covers before finding.blamed.token.spelling
  nonempty : finding.blamed.span.start < finding.blamed.span.stop
  inside : finding.blamed.span.stop ≤ bytes text

/-- The diagnosis of a text names what is found first. -/
theorem names_of_ofTokens? {text : List Char} {finding : Finding}
    (found : Finding.ofTokens? (placedTokens text) = some finding) :
    (ofText text).Names text finding := by
  have shown := Finding.shows_of_ofTokens? found
  have same : ofText text =
      ⟨finding.obstacle.reason, finding.obstacle.details, some finding.blamed.span⟩ := by
    rw [ofText, found]
    rfl
  obtain ⟨before, after, shape, span⟩ := exists_of_mem_placedTokensFrom shown.member
  have covers : finding.blamed.span.Covers before finding.blamed.token.spelling :=
    span ▸ Span.covers_between before finding.blamed.token.spelling
  have nonempty := Token.spelling_ne_nil (legible_of_mem_placedTokensFrom shown.member)
  rw [same]
  refine ⟨Finding.blames_of_ofTokens? found, rfl, rfl, rfl, ?_, ⟨before, after, shape, covers⟩,
    covers.start_lt_stop nonempty, shape ▸ covers.stop_le after⟩
  exact fun word quoted => ⟨shown.token_eq quoted, Obstacle.exists_details quoted⟩

/-- A diagnosis without a span says that the syntax is unknown and comes from a text without a near
miss; any other names exactly the token it blames. -/
theorem blames_leftmost (text : String) :
    ((ofText text.toList).span = none ↔
      (ofText text.toList).reason = .unknownSyntax ∧
        Finding.NoNearMiss (placedTokens text.toList)) ∧
    ∀ span, (ofText text.toList).span = some span →
      ∃ finding, (ofText text.toList).Names text.toList finding ∧ finding.blamed.span = span := by
  constructor
  · rw [ofText, ← Finding.ofTokens?_eq_none_iff]
    cases Finding.ofTokens? (placedTokens text.toList) <;> simp [ofFinding?]
  · intro span blamed
    cases found : Finding.ofTokens? (placedTokens text.toList) with
    | none => simp [ofText, found, ofFinding?] at blamed
    | some finding =>
        have names := names_of_ofTokens? found
        exact ⟨finding, names, Option.some.inj (names.span.symm.trans blamed)⟩

/-- The word of the engine is blamed before the sign and the unit to its left. -/
theorem blames_leftmost_of_signedAngle :
    (ofText "é solar(-5h, mga_72)".toList).span = some ⟨14, 20, 1, 14⟩ ∧
      ∃ finding, (ofText "é solar(-5h, mga_72)".toList).Names "é solar(-5h, mga_72)".toList finding ∧
        finding.blamed.span = ⟨14, 20, 1, 14⟩ := by
  have blamed : (ofText "é solar(-5h, mga_72)".toList).span = some ⟨14, 20, 1, 14⟩ := by
    decide +kernel
  exact ⟨blamed, (blames_leftmost "é solar(-5h, mga_72)").2 _ blamed⟩

end Diagnosis

end Zmanim
