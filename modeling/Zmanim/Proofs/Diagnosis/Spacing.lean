import Zmanim.Proofs.Diagnosis.Evidence
import Zmanim.Proofs.Token.Cut
/-! Gaps between the tokens of a text. -/

namespace Zmanim
open Text

namespace Finding

variable {find others : List PlacedToken → Option Finding}
  {look : PlacedToken → List PlacedToken → Option Finding} {tokens first second : List PlacedToken}
  {number unit : PlacedToken} {origin : Position} {before gap after : List Char}

/-- A search is placeless when it finds the same obstacle in the same tokens, wherever they stand. -/
def Placeless (find : List PlacedToken → Option Finding) : Prop :=
  ∀ first second : List PlacedToken,
    first.map PlacedToken.token = second.map PlacedToken.token →
      (find first).map Finding.obstacle = (find second).map Finding.obstacle

/-- A look is placeless when it sees the same obstacle at the same tokens, wherever they stand. -/
def PlacelessLook (look : PlacedToken → List PlacedToken → Option Finding) : Prop :=
  ∀ (placed other : PlacedToken) (rest others : List PlacedToken), placed.token = other.token →
    rest.map PlacedToken.token = others.map PlacedToken.token →
      (look placed rest).map Finding.obstacle = (look other others).map Finding.obstacle

/-- What is found first by a placeless look is found by a placeless search. -/
theorem PlacelessLook.first? (placeless : PlacelessLook look) : Placeless (first? look) := by
  intro first second same
  induction first generalizing second with
  | nil => rw [List.map_eq_nil_iff.mp same.symm]
  | cons placed rest ih =>
      obtain ⟨other, others, rfl, kind, further⟩ := List.map_eq_cons_iff.mp same.symm
      rw [Finding.first?, Finding.first?, Option.map_or, Option.map_or,
        placeless placed other rest others kind.symm further.symm, ih others further.symm]

theorem Placeless.or (first : Placeless find) (second : Placeless others) :
    Placeless fun tokens => (find tokens).or (others tokens) := fun tokens again same => by
  rw [Option.map_or, Option.map_or, first tokens again same, second tokens again same]

theorem opensCall_congr (same : first.map PlacedToken.token = second.map PlacedToken.token) :
    opensCall first = opensCall second := by
  cases first with
  | nil => rw [List.map_eq_nil_iff.mp same.symm]
  | cons placed rest =>
      obtain ⟨other, others, rfl, kind, -⟩ := List.map_eq_cons_iff.mp same.symm
      rw [opensCall, opensCall, kind]

theorem placeless_conditional? : Placeless conditional? :=
  PlacelessLook.first? fun placed other rest others kind same => by
    rw [kind, opensCall_congr same]
    split <;> rfl

theorem placeless_midpoint? : Placeless midpoint? :=
  PlacelessLook.first? fun placed other rest others kind same => by
    rw [kind, opensCall_congr same]
    split <;> rfl

/-- The number of signs outside all brackets is what the obstacle of several signs tells of them. -/
theorem obstacle_chained? :
    (chained? tokens).map Finding.obstacle =
      if 1 < (topLevelSigns 0 tokens).length then
        some (.chained (topLevelSigns 0 tokens).length)
      else none := by
  unfold chained?
  rcases topLevelSigns 0 tokens with _ | ⟨_, _ | ⟨_, _⟩⟩
  · rfl
  · rfl
  · simp

theorem placeless_chained? : Placeless chained? := by
  intro first second same
  rw [obstacle_chained?, obstacle_chained?, SameMarkers.length_topLevelSigns_eq 0 same]

theorem placeless_call? : Placeless call? :=
  PlacelessLook.first? fun placed other rest others kind same => by
    rw [kind, opensCall_congr same]
    split
    · split <;> rfl
    · rfl

theorem placeless_engineWord? : Placeless engineWord? :=
  PlacelessLook.first? fun placed other rest others kind same => by
    rw [kind]
    split
    · split
      · rfl
      · split <;> rfl
    · rfl

theorem placeless_signedAngle? : Placeless signedAngle? :=
  PlacelessLook.first? fun placed other rest others kind same => by
    rw [kind]
    cases other.token with
    | name name =>
        rcases rest with _ | ⟨bracket, _ | ⟨sign, rest⟩⟩
        · rw [List.map_eq_nil_iff.mp same.symm]
        · obtain ⟨_, rfl, -⟩ := List.map_eq_singleton_iff.mp same.symm
          rfl
        · obtain ⟨_, _, rfl, opens, further⟩ := List.map_eq_cons_iff.mp same.symm
          obtain ⟨_, _, rfl, signed, -⟩ := List.map_eq_cons_iff.mp further
          simp only [opens, signed]
          split
          · split <;> rfl
          · rfl
    | _ => rfl

/-- What is found in tokens before glued units are looked for. -/
def beforeUnits? (tokens : List PlacedToken) : Option Finding :=
  conditional? tokens
    |>.or (midpoint? tokens)
    |>.or (chained? tokens)
    |>.or (call? tokens)
    |>.or (engineWord? tokens)
    |>.or (signedAngle? tokens)

theorem placeless_beforeUnits? : Placeless beforeUnits? :=
  placeless_conditional?.or placeless_midpoint? |>.or placeless_chained? |>.or placeless_call?
    |>.or placeless_engineWord? |>.or placeless_signedAngle?

theorem ofTokens?_eq_or (tokens : List PlacedToken) :
    ofTokens? tokens = (beforeUnits? tokens).or (durationUnit? tokens) := rfl

/-- A name other than `min` is glued to a number when it starts where the number stops. -/
structure Glued (number unit : PlacedToken) : Prop where
  amount : ∃ numeral, number.token = .number numeral
  word : ∃ name, unit.token = .name name ∧ name ≠ "min"
  adjacent : unit.span.start = number.span.stop

theorem evident_gluedUnit_iff {rest : List PlacedToken} :
    Evident GluedUnit number rest ↔ ∃ unit ∈ rest.head?, Glued number unit := by
  constructor
  · rintro ⟨_, ⟨amount, named, glued, other⟩⟩
    exact ⟨_, rfl, ⟨_, amount⟩, ⟨_, named, other⟩, glued⟩
  · rintro ⟨unit, next, ⟨_, amount⟩, ⟨_, named, other⟩, glued⟩
    obtain ⟨more, rfl⟩ := List.head?_eq_some_iff.mp next
    exact ⟨_, .intro amount named glued other⟩

/-- No unit is found exactly when no token is glued to the one before it. -/
theorem durationUnit?_eq_none_iff :
    durationUnit? tokens = none ↔ tokens.IsChain fun number unit => ¬ Glued number unit := by
  rw [searches_durationUnit?.none_iff]
  induction tokens with
  | nil => simp
  | cons placed rest ih =>
      rw [nowhere_cons_iff, ih, evident_gluedUnit_iff, List.isChain_cons]
      simp

theorem glued_shift : Glued (number.shift origin) (unit.shift origin) ↔ Glued number unit := by
  constructor
  · rintro ⟨amount, word, adjacent⟩
    exact ⟨amount, word, Nat.add_left_cancel adjacent⟩
  · rintro ⟨amount, word, adjacent⟩
    exact ⟨amount, word, congrArg (origin.offset + ·) adjacent⟩

/-- A gap at a cut between tokens glues no tokens together. -/
theorem durationUnit?_spaced (blank : Run isGap gap) (between : BetweenTokens before after)
    (unglued : durationUnit? (placedTokens (before ++ after)) = none) :
    durationUnit? (placedTokens (before ++ (gap ++ after))) = none := by
  rcases eq_or_ne gap [] with rfl | nonempty
  · exact unglued
  · have whole := placedTokens_spaced run_nil between
    rw [List.nil_append] at whole
    rw [whole, durationUnit?_eq_none_iff, List.isChain_append, List.isChain_map] at unglued
    rw [placedTokens_spaced blank between, durationUnit?_eq_none_iff, List.isChain_append,
      List.isChain_map]
    simp only [glued_shift] at unglued ⊢
    refine ⟨unglued.1, unglued.2.1, fun number last unit next glued => ?_⟩
    have stops : number.span.stop ≤ bytes before := stop_le_bytes (List.mem_of_getLast? last)
    have starts : bytes (before ++ gap) ≤ unit.span.start := by
      rw [List.head?_map] at next
      obtain ⟨placed, -, rfl⟩ := Option.map_eq_some_iff.mp next
      rw [PlacedToken.span_shift, Span.start_shift, Position.offset_start_after]
      exact Nat.le_add_right _ _
    have long := List.length_pos_iff.mpr nonempty
    have wide := length_le_bytes gap
    have touching := glued.adjacent
    rw [bytes_append] at starts
    omega

/-- The same tokens have the same obstacle wherever they stand, when none of them is glued that was not
and the obstacle is no glued unit. -/
theorem obstacle_ofTokens? (same : first.map PlacedToken.token = second.map PlacedToken.token)
    (unglued : durationUnit? first = none → durationUnit? second = none)
    (elsewhere : ∀ name, (ofTokens? first).map Finding.obstacle ≠ some (.durationUnit name)) :
    (ofTokens? second).map Finding.obstacle = (ofTokens? first).map Finding.obstacle := by
  rw [ofTokens?_eq_or, Option.map_or] at elsewhere
  rw [ofTokens?_eq_or, ofTokens?_eq_or, Option.map_or, Option.map_or,
    placeless_beforeUnits? second first same.symm]
  cases earlier : (beforeUnits? first).map Finding.obstacle with
  | some obstacle => rfl
  | none =>
      cases found : durationUnit? first with
      | none => rw [unglued found]
      | some finding =>
          rw [earlier, found] at elsewhere
          obtain ⟨_, _, -, shown⟩ :=
            (searches_durationUnit?.earliest first finding found).exists_evidence
          cases shown
          exact absurd rfl (elsewhere _)

end Finding

namespace Diagnosis

/-- The diagnosis of a text is about a unit when it finds a word that runs into a number. -/
def AboutUnit (text : List Char) : Prop :=
  ∃ unit, (Finding.ofTokens? (placedTokens text)).map Finding.obstacle = some (.durationUnit unit)

theorem details_ofFinding? {found other : Option Finding}
    (same : found.map Finding.obstacle = other.map Finding.obstacle) :
    (ofFinding? found).details = (ofFinding? other).details := by
  cases found with
  | none => rw [Option.map_eq_none_iff.mp same.symm]
  | some finding =>
      obtain ⟨_, rfl, obstacle⟩ := Option.map_eq_some_iff.mp same.symm
      rw [ofFinding?, ofFinding?, obstacle]

/-- A gap that is put in where no token is cut changes neither the tokens of a text nor the reason of
its diagnosis, and the details only when they are about a unit. -/
theorem agrees_with_spaced (before gap after : List Char) (blank : Run isGap gap)
    (between : BetweenTokens before after) :
    tokens (before ++ (gap ++ after)) = tokens (before ++ after) ∧
    (ofText (before ++ (gap ++ after))).reason = (ofText (before ++ after)).reason ∧
    ((ofText (before ++ (gap ++ after))).details = (ofText (before ++ after)).details ∨
      AboutUnit (before ++ after)) := by
  have same := tokens_eq_of_spaced blank between
  refine ⟨same, (SameMarkers.of_map_token_eq same).reason_eq, ?_⟩
  by_cases about : AboutUnit (before ++ after)
  · exact .inr about
  · have elsewhere := not_exists.mp about
    exact .inl (details_ofFinding? (Finding.obstacle_ofTokens? same.symm
      (Finding.durationUnit?_spaced blank between) elsewhere))

/-- A gap parts a unit from its number, and the text is still diagnosed for its signed angle. -/
theorem agrees_with_spaced_signedAngle :
    tokens "solar(-7\t\nh)".toList = tokens "solar(-7h)".toList ∧
      (ofText "solar(-7\t\nh)".toList).reason = .unknownSyntax ∧
      (ofText "solar(-7\t\nh)".toList).details = Obstacle.signedAngle.details := by
  have blank : Run isGap ['\t', '\n'] := run_cons.mpr ⟨rfl, run_cons.mpr ⟨rfl, run_nil⟩⟩
  have between : BetweenTokens "solar(-7".toList "h)".toList := by decide +kernel
  have found : (Finding.ofTokens? (placedTokens ("solar(-7".toList ++ "h)".toList))).map
      Finding.obstacle = some .signedAngle := by decide +kernel
  have elsewhere : ¬ AboutUnit ("solar(-7".toList ++ "h)".toList) := by
    intro about
    obtain ⟨unit, glued⟩ := about
    cases found.symm.trans glued
  obtain ⟨same, reason, details⟩ := agrees_with_spaced _ _ _ blank between
  have unknown : (ofText ("solar(-7".toList ++ "h)".toList)).reason = .unknownSyntax := by
    decide +kernel
  have angle : (ofText ("solar(-7".toList ++ "h)".toList)).details =
      Obstacle.signedAngle.details := by decide +kernel
  exact ⟨same, reason.trans unknown, (details.resolve_right elsewhere).trans angle⟩

/-- A unit that is parted from its number is no longer found. -/
example : (ofText "5h".toList).details ≠ (ofText "5 h".toList).details := by decide +kernel

end Diagnosis

end Zmanim
