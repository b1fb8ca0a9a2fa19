import Zmanim.Proofs.Token.Lexeme
import Zmanim.Proofs.Token.Shift
/-! Cuts between tokens. -/

namespace Zmanim
open Text

variable {text before gap after : List Char} {placed : PlacedToken} {position : Position}

/-- Inside a span are the offsets behind its start and before its stop. -/
def Text.Span.Inside (span : Span) (offset : Nat) : Prop :=
  span.start < offset ∧ offset < span.stop

instance (span : Span) (offset : Nat) : Decidable (span.Inside offset) :=
  inferInstanceAs (Decidable (_ ∧ _))

namespace Token

/-- A legible token is told by its spelling. -/
theorem eq_of_spelling {token other : Token} (legible : token.Legible) (again : other.Legible)
    (same : token.spelling = other.spelling) : token = other := by
  obtain ⟨first, rest, shape, -, scanned⟩ := scan_spelling_append legible stops_nil
  obtain ⟨next, more, spelled, -, found⟩ := scan_spelling_append again stops_nil
  obtain ⟨rfl, rfl⟩ := List.cons.inj (shape.symm.trans (same.trans spelled))
  exact (Prod.mk.inj (scanned.symm.trans found)).1

/-- The longest token is the same when the text ends behind it. -/
theorem scan_of_append {first : Char} {rest more : List Char} (solid : isGap first = false)
    (spelled : (scan first (rest ++ after)).1.spelling ++ more = first :: rest) :
    scan first rest = ((scan first (rest ++ after)).1, more) := by
  have part := spelling_scan first rest
  have whole := spelling_scan first (rest ++ after)
  have short : (scan first rest).1.Legible := legible_scan solid rest
  have long : (scan first (rest ++ after)).1.Legible := legible_scan solid (rest ++ after)
  have inPart : (scan first rest).1.spelling <+: first :: rest := ⟨_, part⟩
  have inWhole : (scan first rest).1.spelling <+: first :: (rest ++ after) :=
    inPart.trans (List.prefix_append (first :: rest) after)
  have most := longest_scan first rest _ long (part.symm ▸ ⟨more, spelled⟩)
  have least := longest_scan first (rest ++ after) _ short (whole.symm ▸ inWhole)
  have same : (scan first rest).1.spelling = (scan first (rest ++ after)).1.spelling :=
    (List.prefix_of_prefix_length_le inPart ⟨more, spelled⟩ least).eq_of_length_le most
  have left : (scan first rest).2 = more := by
    rw [← spelled, same] at part
    exact List.append_cancel_left part
  rw [← eq_of_spelling short long same, ← left]

/-- A token that a cut is not inside of ends before the cut. -/
theorem exists_of_not_inside {spelling text left : List Char} (nonempty : text ≠ [])
    (shape : spelling ++ left = text ++ after)
    (outside : ¬ (Span.between position (position.after spelling)).Inside
      (position.after text).offset) : ∃ more, spelling ++ more = text ∧ left = more ++ after := by
  rcases List.append_eq_append_iff.mp shape with ⟨more, inside, same⟩ | ⟨more, past, same⟩
  · exact ⟨more, inside.symm, same⟩
  · have size := length_le_bytes text
    have some := List.length_pos_iff.mpr nonempty
    have least := length_le_bytes more
    have begins : position.offset < (position.after text).offset := by
      rw [Position.offset_after_eq]
      omega
    have ends : ¬ (position.after text).offset < (position.after spelling).offset :=
      fun further => outside ⟨begins, further⟩
    rw [Position.offset_after_eq, Position.offset_after_eq, past, bytes_append] at ends
    obtain rfl : more = [] := List.eq_nil_of_length_eq_zero (by omega)
    exact ⟨[], by simpa using past, by simpa using same.symm⟩

end Token

/-- A text is cut into tokens wherever no token is cut. -/
theorem placedTokensFrom_cut (position : Position) (before after : List Char)
    (outside : ∀ placed ∈ placedTokensFrom position (before ++ after),
      ¬ placed.span.Inside (position.after before).offset) :
    placedTokensFrom position (before ++ after) =
      placedTokensFrom position before ++ placedTokensFrom (position.after before) after := by
  fun_induction placedTokensFrom position before with
  | case1 position => rfl
  | case2 position first rest gap ih =>
      rw [List.cons_append, placedTokensFrom_gap position gap] at outside ⊢
      exact ih outside
  | case3 position first rest gap token stop ih =>
      have solid : isGap first = false := Bool.eq_false_iff.mpr gap
      rw [List.cons_append, placedTokensFrom_token position solid, List.forall_mem_cons] at outside
      rw [List.cons_append, placedTokensFrom_token position solid]
      have shape := Token.spelling_scan first (rest ++ after)
      obtain ⟨more, spelled, left⟩ :=
        Token.exists_of_not_inside (List.cons_ne_nil first rest) shape outside.1
      have scanned := Token.scan_of_append solid spelled
      have whole : position.after (first :: rest) = stop.after (Token.scan first rest).2 := by
        rw [← Token.spelling_scan first rest, Position.after_append]
      have found : (Token.scan first (rest ++ after)).1 = token := (congrArg Prod.fst scanned).symm
      have remains : more = (Token.scan first rest).2 := (congrArg Prod.snd scanned).symm
      rw [left, found, remains, whole] at outside
      rw [left, found, remains, whole, ih outside.2]
      rfl

/-- A text is cut between tokens when no token has the place of the cut inside its span. -/
def BetweenTokens (before after : List Char) : Prop :=
  ∀ placed ∈ placedTokens (before ++ after), ¬ placed.span.Inside (bytes before)

instance (before after : List Char) : Decidable (BetweenTokens before after) :=
  inferInstanceAs (Decidable (∀ placed ∈ placedTokens (before ++ after), _))

/-- A gap at a cut between tokens moves the tokens behind it. -/
theorem placedTokens_spaced (blank : Run isGap gap) (between : BetweenTokens before after) :
    placedTokens (before ++ (gap ++ after)) = placedTokens before ++
      (placedTokens after).map (.shift (Position.start.after (before ++ gap))) := by
  rw [← placedTokensFrom_eq_map, Position.after_append]
  rcases eq_or_ne gap [] with rfl | nonempty
  · rw [BetweenTokens, ← Position.offset_start_after] at between
    exact placedTokensFrom_cut .start before after between
  · have stops : Stops Token.isInner (gap ++ after) :=
      (Token.stops_isInner_of_run blank.isBlank_of_isGap).append nonempty
    rw [placedTokens, placedTokensFrom_append _ stops, placedTokensFrom_run _ blank]
    rfl

/-- A text that is cut between tokens has the tokens of the two parts, also with a gap at the cut. -/
theorem tokens_spaced (blank : Run isGap gap) (between : BetweenTokens before after) :
    tokens (before ++ (gap ++ after)) = tokens before ++ tokens after := by
  rw [tokens, placedTokens_spaced blank between, List.map_append, List.map_map]
  rfl

/-- A gap at a cut between tokens changes no token. -/
theorem tokens_eq_of_spaced (blank : Run isGap gap) (between : BetweenTokens before after) :
    tokens (before ++ (gap ++ after)) = tokens (before ++ after) :=
  (tokens_spaced blank between).trans (tokens_spaced run_nil between).symm

/-- A token stops where its text ends or before. -/
theorem stop_le_bytes (member : placed ∈ placedTokens text) : placed.span.stop ≤ bytes text := by
  obtain ⟨before, after, stands⟩ := exists_standsIn member
  exact stands.spelled ▸ stands.span.stop_le after

end Zmanim
