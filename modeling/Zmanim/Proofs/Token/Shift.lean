import Zmanim.Proofs.Token.Sequence
/-! Shifted tokens. -/

namespace Zmanim
open Text

namespace Text

variable {origin position : Position}

/-- Where a position of a text is when the text begins at an origin; only the first line of the text
goes on from the column of the origin. -/
def Position.shift (origin position : Position) : Position :=
  ⟨origin.offset + position.offset, origin.line + (position.line - 1),
    if position.line = 1 then origin.column + (position.column - 1) else position.column⟩

/-- Where a span of a text is when the text begins at an origin. -/
def Span.shift (origin : Position) (span : Span) : Span :=
  between (origin.shift ⟨span.start, span.line, span.column⟩)
    (origin.shift ⟨span.stop, span.line, span.column⟩)

@[simp] theorem Span.start_shift (origin : Position) (span : Span) :
    (span.shift origin).start = origin.offset + span.start := rfl

@[simp] theorem Span.stop_shift (origin : Position) (span : Span) :
    (span.shift origin).stop = origin.offset + span.stop := rfl

theorem Span.between_shift (origin first last : Position) :
    between (origin.shift first) (origin.shift last) = (between first last).shift origin := rfl

namespace Position

@[simp] theorem shift_start (origin : Position) : origin.shift start = origin := by
  simp [shift, start]

/-- Lines and columns count from one. -/
structure Proper (position : Position) : Prop where
  line : 1 ≤ position.line
  column : 1 ≤ position.column

theorem proper_start : start.Proper := ⟨Nat.le_refl 1, Nat.le_refl 1⟩

theorem Proper.step (proper : position.Proper) (character : Char) :
    (position.step character).Proper := by
  unfold Position.step
  split
  · exact ⟨Nat.le_succ_of_le proper.line, Nat.le_refl 1⟩
  · exact ⟨proper.line, Nat.le_succ_of_le proper.column⟩

theorem Proper.after (proper : position.Proper) (text : List Char) :
    (position.after text).Proper := by
  induction text generalizing position with
  | nil => exact proper
  | cons character rest ih => exact ih (proper.step character)

theorem step_shift (origin : Position) (proper : position.Proper) (character : Char) :
    (origin.shift position).step character = origin.shift (position.step character) := by
  obtain ⟨line, column⟩ := proper
  unfold step
  split
  · have later : position.line + 1 ≠ 1 := by omega
    rw [shift, shift, mk.injEq, if_neg later]
    refine ⟨Nat.add_assoc _ _ _, ?_, rfl⟩
    dsimp only
    omega
  · rw [shift, shift, mk.injEq]
    refine ⟨Nat.add_assoc _ _ _, rfl, ?_⟩
    dsimp only
    split <;> omega

theorem after_shift (origin : Position) (proper : position.Proper) (text : List Char) :
    (origin.shift position).after text = origin.shift (position.after text) := by
  induction text generalizing position with
  | nil => rfl
  | cons character rest ih =>
      rw [after_cons, after_cons, step_shift origin proper, ih (proper.step character)]

end Position

end Text

/-- Where a token of a text is when the text begins at an origin. -/
def PlacedToken.shift (origin : Position) (placed : PlacedToken) : PlacedToken :=
  { placed with span := placed.span.shift origin }

@[simp] theorem PlacedToken.token_shift (origin : Position) (placed : PlacedToken) :
    (placed.shift origin).token = placed.token := rfl

@[simp] theorem PlacedToken.span_shift (origin : Position) (placed : PlacedToken) :
    (placed.shift origin).span = placed.span.shift origin := rfl

theorem placedTokensFrom_shift (origin : Position) {position : Position}
    (proper : position.Proper) (text : List Char) :
    placedTokensFrom (origin.shift position) text =
      (placedTokensFrom position text).map (PlacedToken.shift origin) := by
  fun_induction placedTokensFrom position text with
  | case1 => rw [placedTokensFrom_nil, List.map_nil]
  | case2 position first rest gap ih =>
      rw [placedTokensFrom_gap _ gap, Position.step_shift origin proper,
        ih (proper.step first)]
  | case3 position first rest gap token stop ih =>
      have whole : (origin.shift position).after token.spelling = origin.shift stop :=
        Position.after_shift origin proper token.spelling
      rw [placedTokensFrom_token _ (Bool.eq_false_iff.mpr gap), whole, Span.between_shift,
        ih (proper.after token.spelling)]
      rfl

/-- The tokens of a text that begins at an origin are shifted there. -/
theorem placedTokensFrom_eq_map (origin : Position) (text : List Char) :
    placedTokensFrom origin text = (placedTokens text).map (PlacedToken.shift origin) := by
  have shifted := placedTokensFrom_shift origin Position.proper_start text
  rwa [Position.shift_start] at shifted

/-- A text has the tokens of the trimmed text, shifted behind its leading blanks, and around them no
tokens but characters outside the alphabet of formulas. -/
theorem exists_placedTokens_trim (text : List Char) :
    ∃ front back, placedTokens text =
        front ++ ((placedTokens (trim text)).map
          (PlacedToken.shift (Position.start.after (leading text))) ++ back) ∧
      (∀ placed ∈ front, ∃ character, placed.token = .other character) ∧
      ∀ placed ∈ back, ∃ character, placed.token = .other character := by
  obtain ⟨after, blank, whole⟩ := exists_leading_append text
  refine ⟨placedTokens (leading text),
    placedTokensFrom ((Position.start.after (leading text)).after (trim text)) after, ?_,
    fun _ => exists_other_of_run (run_leading text), fun _ => exists_other_of_run blank⟩
  rw [← placedTokensFrom_eq_map, ← placedTokensFrom_append _ (Token.stops_isInner_of_run blank),
    placedTokens, placedTokens, ← placedTokensFrom_blank _ (run_leading text), ← whole]

end Zmanim
