import Zmanim.Proofs.Diagnosis.TopLevel
/-! Evidence for diagnoses. -/

namespace Zmanim
open Text

/-- A direction that the engine knows and no formula has. -/
def IsEngineDirection (name : String) : Prop :=
  name ∈ Engine.directions ∧ name ∉ SolarDirection.all.map SolarDirection.token

/-- A day that the engine knows and no formula has. -/
def IsEngineBase (name : String) : Prop :=
  name ∈ Engine.bases ∧ name ∉ DayKind.all.map DayKind.token

namespace Finding

/-- An `else`, or an `if` with a round bracket right behind it. -/
inductive Branch : PlacedToken → List PlacedToken → Finding → Prop where
  | otherwise {placed rest} (keyword : placed.token = .name "else") :
      Branch placed rest ⟨.conditional, placed⟩
  | condition {placed bracket rest} (keyword : placed.token = .name "if")
      (opens : bracket.token = .opening .round) :
      Branch placed (bracket :: rest) ⟨.conditional, placed⟩

/-- The name `midpoint` with a round bracket right behind it. -/
inductive MidpointCall : PlacedToken → List PlacedToken → Finding → Prop where
  | intro {placed bracket rest} (named : placed.token = .name "midpoint")
      (opens : bracket.token = .opening .round) :
      MidpointCall placed (bracket :: rest) ⟨.midpoint, placed⟩

/-- A name that no formula calls, with a round bracket right behind it. -/
inductive ForeignCall : PlacedToken → List PlacedToken → Finding → Prop where
  | intro {placed bracket rest name} (named : placed.token = .name name)
      (opens : bracket.token = .opening .round)
      (foreign : name ∉ ["solar", "proportional_hours", "custom"]) :
      ForeignCall placed (bracket :: rest) ⟨.call name, placed⟩

/-- A direction or a day that only the engine knows. -/
inductive EngineWord : PlacedToken → List PlacedToken → Finding → Prop where
  | direction {placed rest name} (named : placed.token = .name name)
      (only : IsEngineDirection name) : EngineWord placed rest ⟨.direction name, placed⟩
  | base {placed rest name} (named : placed.token = .name name) (only : IsEngineBase name) :
      EngineWord placed rest ⟨.base name, placed⟩

/-- A sign right behind the bracket of a solar call. -/
inductive SignedAngle : PlacedToken → List PlacedToken → Finding → Prop where
  | intro {placed bracket sign rest side} (named : placed.token = .name "solar")
      (opens : bracket.token = .opening .round) (signed : sign.token = .sign side) :
      SignedAngle placed (bracket :: sign :: rest) ⟨.signedAngle, sign⟩

/-- A name other than `min` that starts where a number stops. -/
inductive GluedUnit : PlacedToken → List PlacedToken → Finding → Prop where
  | intro {placed unit rest numeral name} (amount : placed.token = .number numeral)
      (named : unit.token = .name name) (glued : unit.span.start = placed.span.stop)
      (other : name ≠ "min") : GluedUnit placed (unit :: rest) ⟨.durationUnit name, unit⟩

theorem opensCall_iff {rest : List PlacedToken} :
    opensCall rest = true ↔ ∃ bracket more, rest = bracket :: more ∧
      bracket.token = .opening .round := by
  cases rest <;> simp [opensCall]

theorem searches_conditional? : Searches conditional? Branch :=
  searches_first? fun placed rest finding => by
    rw [Option.ite_none_right_eq_some, opensCall_iff]
    constructor
    · rintro ⟨keyword | ⟨keyword, bracket, more, rfl, opens⟩, ⟨⟩⟩
      · exact .otherwise keyword
      · exact .condition keyword opens
    · rintro (keyword | ⟨keyword, opens⟩)
      · exact ⟨.inl keyword, rfl⟩
      · exact ⟨.inr ⟨keyword, _, _, rfl, opens⟩, rfl⟩

theorem searches_midpoint? : Searches midpoint? MidpointCall :=
  searches_first? fun placed rest finding => by
    rw [Option.ite_none_right_eq_some, opensCall_iff]
    constructor
    · rintro ⟨⟨named, bracket, more, rfl, opens⟩, ⟨⟩⟩
      exact .intro named opens
    · rintro ⟨named, opens⟩
      exact ⟨⟨named, _, _, rfl, opens⟩, rfl⟩

theorem searches_call? : Searches call? ForeignCall :=
  searches_first? fun placed rest finding => by
    constructor
    · intro found
      split at found
      · rename_i name named
        rw [Option.ite_none_right_eq_some, opensCall_iff] at found
        obtain ⟨⟨⟨bracket, more, rfl, opens⟩, foreign⟩, ⟨⟩⟩ := found
        exact .intro named opens foreign
      · simp at found
    · rintro ⟨named, opens, foreign⟩
      simp only [named]
      rw [Option.ite_none_right_eq_some, opensCall_iff]
      exact ⟨⟨⟨_, _, rfl, opens⟩, foreign⟩, rfl⟩

/-- No word of the engine is both a direction and a day. -/
theorem not_isEngineDirection_of_isEngineBase {name : String} (only : IsEngineBase name) :
    ¬ IsEngineDirection name := by
  have apart : ∀ base ∈ Engine.bases, base ∉ Engine.directions := by decide
  exact fun direction => apart name only.1 direction.1

theorem searches_engineWord? : Searches engineWord? EngineWord :=
  searches_first? fun placed rest finding => by
    constructor
    · intro found
      split at found
      · rename_i name named
        split at found
        · rename_i only
          obtain rfl := Option.some.inj found
          exact .direction named only
        · obtain ⟨only, ⟨⟩⟩ := Option.ite_none_right_eq_some.mp found
          exact .base named only
      · simp at found
    · rintro (⟨named, only⟩ | ⟨named, only⟩)
      · simp only [named]
        exact if_pos only
      · simp only [named]
        exact (if_neg (not_isEngineDirection_of_isEngineBase only)).trans (if_pos only)

theorem searches_signedAngle? : Searches signedAngle? SignedAngle :=
  searches_first? fun placed rest finding => by
    constructor
    · intro found
      split at found
      · split at found
        · rename_i named _ _ side opens signed
          obtain ⟨rfl, ⟨⟩⟩ := Option.ite_none_right_eq_some.mp found
          exact .intro named opens signed
        · simp at found
      · simp at found
    · rintro ⟨named, opens, signed⟩
      simp [named, opens, signed]

theorem searches_durationUnit? : Searches durationUnit? GluedUnit :=
  searches_first? fun placed rest finding => by
    constructor
    · intro found
      split at found
      · split at found
        · rename_i numeral unit others amount _ name named
          obtain ⟨⟨glued, other⟩, ⟨⟩⟩ := Option.ite_none_right_eq_some.mp found
          exact .intro amount named glued other
        · simp at found
      · simp at found
    · rintro ⟨amount, named, glued, other⟩
      simp [amount, named, glued, other]

/-- No near miss: no word of the engine, no signed angle and no glued unit. -/
structure NoNearMiss (tokens : List PlacedToken) : Prop where
  noWord : Nowhere (Evident EngineWord) tokens
  noAngle : Nowhere (Evident SignedAngle) tokens
  noUnit : Nowhere (Evident GluedUnit) tokens

/-- The token that a finding has to blame for its obstacle: the leftmost with evidence for it, or the
second of so many signs at top level. Near misses are looked for one kind after the other. -/
def Blames (tokens : List PlacedToken) (finding : Finding) : Prop :=
  match finding.obstacle with
  | .conditional => Earliest Branch tokens finding
  | .midpoint => Earliest MidpointCall tokens finding
  | .chained count =>
      (∃ first between rest, Leftmost (TopLevel tokens) tokens first between ∧
        Leftmost (TopLevel tokens) between finding.blamed rest) ∧
      (topLevelSigns 0 tokens)[1]? = some finding.blamed ∧
      (topLevelSigns 0 tokens).length = count
  | .call _ => Earliest ForeignCall tokens finding
  | .direction _ | .base _ => Earliest EngineWord tokens finding
  | .signedAngle => Nowhere (Evident EngineWord) tokens ∧ Earliest SignedAngle tokens finding
  | .durationUnit _ => Nowhere (Evident EngineWord) tokens ∧
      Nowhere (Evident SignedAngle) tokens ∧ Earliest GluedUnit tokens finding

theorem blames_chained? {tokens : List PlacedToken} {finding : Finding}
    (found : chained? tokens = some finding) : finding.Blames tokens := by
  unfold chained? at found
  split at found
  · rename_i first second others signs
    obtain rfl := Option.some.inj found
    refine ⟨?leftmost, by rw [signs]; rfl, by rw [signs]⟩
    rw [← depthAfter_nil 0] at signs
    obtain ⟨front, between, shape, leftmost, further⟩ :=
      leftmost_of_topLevelSigns (List.nil_append tokens).symm signs
    have split : tokens = ([] ++ (front ++ [first])) ++ between := by simpa using shape
    obtain ⟨-, rest, -, next, -⟩ := leftmost_of_topLevelSigns split further
    exact ⟨first, between, rest, leftmost, next⟩
  · simp at found

/-- Whatever is found first, the blamed token is the one that the obstacle calls for. -/
theorem blames_of_ofTokens? {tokens : List PlacedToken} {finding : Finding}
    (found : ofTokens? tokens = some finding) : finding.Blames tokens := by
  simp only [ofTokens?, Option.or_eq_some_iff, Option.or_eq_none_iff] at found
  rcases found with (((((found | ⟨-, found⟩) | ⟨-, found⟩) | ⟨-, found⟩) | ⟨-, found⟩) |
    ⟨⟨-, noWord⟩, found⟩) | ⟨⟨⟨-, noWord⟩, noAngle⟩, found⟩
  · have earliest := searches_conditional?.earliest tokens finding found
    obtain ⟨_, _, -, shown⟩ := earliest.exists_evidence
    cases shown <;> exact earliest
  · have earliest := searches_midpoint?.earliest tokens finding found
    obtain ⟨_, _, -, ⟨_, _⟩⟩ := earliest.exists_evidence
    exact earliest
  · exact blames_chained? found
  · have earliest := searches_call?.earliest tokens finding found
    obtain ⟨_, _, -, ⟨_, _, _⟩⟩ := earliest.exists_evidence
    exact earliest
  · have earliest := searches_engineWord?.earliest tokens finding found
    obtain ⟨_, _, -, shown⟩ := earliest.exists_evidence
    cases shown <;> exact earliest
  · have earliest := searches_signedAngle?.earliest tokens finding found
    have noWord := (searches_engineWord?.none_iff tokens).mp noWord
    obtain ⟨_, _, -, ⟨_, _, _⟩⟩ := earliest.exists_evidence
    exact ⟨noWord, earliest⟩
  · have earliest := searches_durationUnit?.earliest tokens finding found
    have noWord := (searches_engineWord?.none_iff tokens).mp noWord
    have noAngle := (searches_signedAngle?.none_iff tokens).mp noAngle
    obtain ⟨_, _, -, ⟨_, _, _, _⟩⟩ := earliest.exists_evidence
    exact ⟨noWord, noAngle, earliest⟩

/-- Nothing is found exactly in tokens without a marker and without a near miss. -/
theorem ofTokens?_eq_none_iff {tokens : List PlacedToken} :
    ofTokens? tokens = none ↔
      (Diagnosis.ofFinding? (ofTokens? tokens)).reason = .unknownSyntax ∧ NoNearMiss tokens := by
  constructor
  · intro nothing
    refine ⟨by rw [nothing]; rfl, ?_⟩
    simp only [ofTokens?, Option.or_eq_none_iff] at nothing
    obtain ⟨⟨⟨-, noWord⟩, noAngle⟩, noUnit⟩ := nothing
    exact ⟨(searches_engineWord?.none_iff tokens).mp noWord,
      (searches_signedAngle?.none_iff tokens).mp noAngle,
      (searches_durationUnit?.none_iff tokens).mp noUnit⟩
  · rintro ⟨unknown, noWord, noAngle, noUnit⟩
    cases found : ofTokens? tokens with
    | none => rfl
    | some finding =>
        have blames := blames_of_ofTokens? found
        rw [found] at unknown
        simp only [Diagnosis.ofFinding?] at unknown
        cases obstacle : finding.obstacle with
        | direction name | base name =>
            simp only [Blames, obstacle] at blames
            exact absurd noWord blames.not_nowhere
        | signedAngle =>
            simp only [Blames, obstacle] at blames
            exact absurd noAngle blames.2.not_nowhere
        | durationUnit name =>
            simp only [Blames, obstacle] at blames
            exact absurd noUnit blames.2.2.not_nowhere
        | _ => simp [obstacle, Obstacle.reason] at unknown

end Finding

end Zmanim
