import Mathlib.Data.List.Chain
import Zmanim.Proofs.Formula.Layout
import Zmanim.Proofs.Token.Scan
/-! The tokens of a text. -/

namespace Zmanim
open Text

variable {text left gap first second : List Char} {token : Token} {placed : PlacedToken}
  {others : List PlacedToken} {position : Position}

theorem placedTokensFrom_run (position : Position) (blank : Run isGap gap) :
    placedTokensFrom position (gap ++ left) = placedTokensFrom (position.after gap) left := by
  induction gap generalizing position with
  | nil => rfl
  | cons first rest ih =>
      obtain ⟨same, blank⟩ := run_cons.mp blank
      rw [List.cons_append, placedTokensFrom_gap position same, ih _ blank, Position.after_cons]

/-- A legible token is the first of a text that begins with its spelling and does not go on. -/
theorem placedTokensFrom_spelling (position : Position) (legible : token.Legible)
    (stops : Stops token.goesOn left) :
    placedTokensFrom position (token.spelling ++ left) =
      ⟨token, Span.between position (position.after token.spelling)⟩ ::
        placedTokensFrom (position.after token.spelling) left := by
  obtain ⟨first, rest, shape, solid, scanned⟩ := Token.scan_spelling_append legible stops
  rw [shape, List.cons_append, placedTokensFrom_token position solid, scanned, ← shape]

/-- A text is cut into tokens before every character that goes on in no token. -/
theorem placedTokensFrom_append (position : Position) (stops : Stops Token.isInner second) :
    placedTokensFrom position (first ++ second) =
      placedTokensFrom position first ++ placedTokensFrom (position.after first) second := by
  fun_induction placedTokensFrom position first with
  | case1 position => simp
  | case2 position first rest gap ih =>
      rw [List.cons_append, placedTokensFrom_gap position gap, ih, Position.after_cons]
  | case3 position first rest gap token stop ih =>
      have whole : position.after (first :: rest) = stop.after (Token.scan first rest).2 := by
        rw [← Token.spelling_scan first rest, Position.after_append]
      rw [List.cons_append, placedTokensFrom_token position (Bool.eq_false_iff.mpr gap),
        Token.scan_append first rest stops, ih, whole, List.cons_append]

/-- A text is cut into tokens after every blank. -/
theorem placedTokensFrom_blank (position : Position) (blank : Run isBlank first) :
    placedTokensFrom position (first ++ second) =
      placedTokensFrom position first ++ placedTokensFrom (position.after first) second := by
  induction first generalizing position with
  | nil => simp
  | cons character rest ih =>
      obtain ⟨same, blank⟩ := run_cons.mp blank
      rw [List.cons_append, Position.after_cons]
      cases solid : isGap character with
      | true => rw [placedTokensFrom_gap _ solid, placedTokensFrom_gap _ solid, ih _ blank]
      | false =>
          rw [placedTokensFrom_token _ solid, placedTokensFrom_token _ solid, Token.scan_blank same,
            Token.scan_blank same, ih _ blank]
          rfl

/-- The tokens of blanks are characters outside the alphabet of formulas. -/
theorem exists_other_of_run (blank : Run isBlank text)
    (member : placed ∈ placedTokensFrom position text) :
    ∃ character, placed.token = .other character := by
  induction text generalizing position with
  | nil => simp at member
  | cons character rest ih =>
      obtain ⟨same, blank⟩ := run_cons.mp blank
      cases solid : isGap character with
      | true =>
          rw [placedTokensFrom_gap _ solid] at member
          exact ih blank member
      | false =>
          rw [placedTokensFrom_token _ solid, Token.scan_blank same] at member
          rcases List.mem_cons.mp member with rfl | member
          · exact ⟨character, rfl⟩
          · exact ih blank member

/-- The first token of a text stands behind a gap, and the others are those of the text after it. -/
theorem exists_of_placedTokensFrom_eq_cons
    (found : placedTokensFrom position text = placed :: others) :
    ∃ gap rest, Run isGap gap ∧ text = gap ++ (placed.token.spelling ++ rest) ∧
      placed.token.Legible ∧
      placed.span = Span.between (position.after gap)
        ((position.after gap).after placed.token.spelling) ∧
      placedTokensFrom ((position.after gap).after placed.token.spelling) rest = others := by
  induction text generalizing position with
  | nil => simp at found
  | cons first rest ih =>
      cases same : isGap first with
      | true =>
          rw [placedTokensFrom_gap position same] at found
          obtain ⟨gap, left, blank, rfl, follows⟩ := ih found
          exact ⟨first :: gap, left, run_cons.mpr ⟨same, blank⟩, rfl, follows⟩
      | false =>
          rw [placedTokensFrom_token position same] at found
          obtain ⟨rfl, rfl⟩ := List.cons.inj found
          exact ⟨[], (Token.scan first rest).2, run_nil, (Token.spelling_scan first rest).symm,
            Token.legible_scan same rest, rfl, rfl⟩

/-- A text without tokens is a gap. -/
theorem run_of_placedTokensFrom_eq_nil (none : placedTokensFrom position text = []) :
    Run isGap text := by
  induction text generalizing position with
  | nil => exact run_nil
  | cons first rest ih =>
      cases same : isGap first with
      | true =>
          rw [placedTokensFrom_gap position same] at none
          exact run_cons.mpr ⟨same, ih none⟩
      | false => simp [placedTokensFrom_token position same] at none

/-- Every token of a text is scanned at a place of it. -/
theorem exists_scan_of_mem (member : placed ∈ placedTokensFrom position text) :
    ∃ before first rest, text = before ++ first :: rest ∧ isGap first = false ∧
      placed = ⟨(Token.scan first rest).1, Span.between (position.after before)
        ((position.after before).after (Token.scan first rest).1.spelling)⟩ := by
  fun_induction placedTokensFrom position text with
  | case1 => simp at member
  | case2 position character others gap ih =>
      obtain ⟨before, first, rest, rfl, solid, scanned⟩ := ih member
      exact ⟨character :: before, first, rest, rfl, solid, scanned⟩
  | case3 position character others gap token stop ih =>
      rcases List.mem_cons.mp member with rfl | member
      · exact ⟨[], character, others, rfl, Bool.eq_false_iff.mpr gap, rfl⟩
      · obtain ⟨before, first, rest, shape, solid, scanned⟩ := ih member
        refine ⟨token.spelling ++ before, first, rest, ?_, solid, ?_⟩
        · rw [List.append_assoc, ← shape, Token.spelling_scan]
        · rw [scanned, Position.after_append]

/-- Every token of a text is legible. -/
theorem legible_of_mem_placedTokensFrom (member : placed ∈ placedTokensFrom position text) :
    placed.token.Legible := by
  obtain ⟨before, first, rest, -, solid, rfl⟩ := exists_scan_of_mem member
  exact Token.legible_scan solid rest

/-- Every token of a text has a place in it, and its span reaches from there over its spelling. -/
theorem exists_of_mem_placedTokensFrom (member : placed ∈ placedTokensFrom position text) :
    ∃ before after, text = before ++ (placed.token.spelling ++ after) ∧
      placed.span = Span.between (position.after before)
        ((position.after before).after placed.token.spelling) := by
  obtain ⟨before, first, rest, rfl, -, rfl⟩ := exists_scan_of_mem member
  exact ⟨before, (Token.scan first rest).2, by rw [Token.spelling_scan], rfl⟩

/-- Only a character that no formula has can be a token with a blank. -/
theorem Token.solid_spelling (legible : token.Legible)
    (plain : ∀ character, token ≠ .other character) : Solid token.spelling := by
  cases token with
  | name => exact .of_nameShaped legible
  | reference => exact (Solid.of_nameShaped legible).cons (by decide)
  | number => exact .of_wellFormed legible
  | other character => exact absurd rfl (plain character)
  | sign side => cases side <;> exact .mark (by decide)
  | opening bracket => cases bracket <;> exact .mark (by decide)
  | closing bracket => cases bracket <;> exact .mark (by decide)
  | _ => exact .mark (by decide)

/-- The spellings of solid tokens are spread over the text that has the tokens. -/
theorem spread_of_placedTokensFrom {tokens : List PlacedToken}
    (found : placedTokensFrom position text = tokens)
    (solid : ∀ placed ∈ tokens, Solid placed.token.spelling) :
    Spread (tokens.map fun placed => placed.token.spelling) text [] := by
  induction tokens generalizing position text with
  | nil =>
      have whole := Spread.done text [] (run_of_placedTokensFrom_eq_nil found)
      rwa [List.append_nil] at whole
  | cons placed others ih =>
      obtain ⟨gap, rest, blank, rfl, -, -, follows⟩ := exists_of_placedTokensFrom_eq_cons found
      obtain ⟨first, solid⟩ := List.forall_mem_cons.mp solid
      exact .next gap _ blank first (ih follows solid)

/-- Two tokens that stand without a gap between them are spread as one part. -/
theorem spread_of_adjacent {number unit : PlacedToken}
    (found : placedTokensFrom position text = [number, unit])
    (adjacent : unit.span.start = number.span.stop)
    (solid : Solid (number.token.spelling ++ unit.token.spelling)) :
    Spread [number.token.spelling ++ unit.token.spelling] text [] := by
  obtain ⟨before, _, blank, rfl, -, placed, follows⟩ := exists_of_placedTokensFrom_eq_cons found
  obtain ⟨between, after, -, rfl, -, next, nothing⟩ := exists_of_placedTokensFrom_eq_cons follows
  rw [next, placed] at adjacent
  obtain rfl : between = [] := Position.eq_nil_of_offset_after adjacent
  have last := Spread.done after [] (run_of_placedTokensFrom_eq_nil nothing)
  have whole := Spread.next before _ blank solid last
  simpa only [List.append_nil, List.nil_append, List.append_assoc] using whole

/-- The tokens of a text without their places. -/
def tokens (text : List Char) : List Token := (placedTokens text).map PlacedToken.token

/-- The tokens of a text do not depend on the place of the text. -/
theorem map_token_placedTokensFrom (position : Position) (text : List Char) :
    (placedTokensFrom position text).map PlacedToken.token = tokens text := by
  unfold tokens placedTokens
  generalize Position.start = other
  fun_induction placedTokensFrom position text generalizing other with
  | case1 => rw [placedTokensFrom_nil]
  | case2 position first rest gap ih => rw [placedTokensFrom_gap other gap, ih]
  | case3 position first rest gap token stop ih =>
      rw [placedTokensFrom_token other (Bool.eq_false_iff.mpr gap), List.map_cons, List.map_cons,
        ih]

@[simp] theorem tokens_nil : tokens [] = [] := by
  simp [tokens, placedTokens]

theorem tokens_run (blank : Run isGap gap) : tokens (gap ++ left) = tokens left := by
  rw [tokens, placedTokens, placedTokensFrom_run _ blank, map_token_placedTokensFrom]

theorem tokens_space (left : List Char) : tokens (' ' :: left) = tokens left :=
  tokens_run run_space

theorem tokens_spelling (legible : token.Legible) (stops : Stops token.goesOn left) :
    tokens (token.spelling ++ left) = token :: tokens left := by
  rw [tokens, placedTokens, placedTokensFrom_spelling _ legible stops, List.map_cons,
    map_token_placedTokensFrom]

theorem tokens_append (stops : Stops Token.isInner second) :
    tokens (first ++ second) = tokens first ++ tokens second := by
  rw [tokens, placedTokens, placedTokensFrom_append _ stops, List.map_append,
    map_token_placedTokensFrom, map_token_placedTokensFrom]

/-- A character that begins no longer token stands for itself. -/
theorem tokens_character {character : Char} (solid : isGap character = false)
    (outside : isNamePart character = false) (plain : character ≠ '@') :
    tokens (character :: left) = Token.ofCharacter character :: tokens left := by
  have scanned : Token.scan character left = (Token.ofCharacter character, left) :=
    Token.scan_mark outside fun mark => absurd mark plain
  rw [tokens, placedTokens, placedTokensFrom_token _ solid, scanned, List.map_cons,
    map_token_placedTokensFrom]

/-- A text is cut into tokens on both sides of a mark. -/
theorem tokens_append_mark {character : Char} (solid : isGap character = false)
    (inner : Token.isInner character = false) (plain : character ≠ '@') :
    tokens (text ++ character :: left) =
      tokens text ++ Token.ofCharacter character :: tokens left := by
  have outside := (Bool.or_eq_false_iff.mp inner).1
  rw [tokens_append (stops_cons.mpr inner), tokens_character solid outside plain]

theorem tokens_append_closing (text : List Char) :
    tokens (text ++ [')']) = tokens text ++ [.closing .round] := by
  rw [tokens_append_mark rfl rfl (by decide), tokens_nil]
  rfl

theorem tokens_single (legible : token.Legible) : tokens token.spelling = [token] := by
  have single := tokens_spelling legible stops_nil
  rwa [List.append_nil, tokens_nil] at single

theorem tokens_name {name : String} (shaped : NameShaped name) :
    tokens name.toList = [.name name] :=
  @tokens_single (.name name) shaped

/-- The tokens of a call up to its bracket. -/
theorem tokens_call {name : String} (shaped : NameShaped name) (left : List Char) :
    tokens (name.toList ++ '(' :: left) = .name name :: .opening .round :: tokens left := by
  rw [tokens_append_mark rfl rfl (by decide), tokens_name shaped]
  rfl

/-- A text with a single token is its spelling between two gaps. -/
theorem exists_of_tokens_eq_singleton (single : tokens text = [token]) :
    ∃ before after, Run isGap before ∧ Run isGap after ∧
      text = before ++ (token.spelling ++ after) := by
  obtain ⟨placed, found, rfl⟩ := List.map_eq_singleton_iff.mp single
  obtain ⟨before, after, blank, rfl, -, -, nothing⟩ := exists_of_placedTokensFrom_eq_cons found
  exact ⟨before, after, blank, run_of_placedTokensFrom_eq_nil nothing, rfl⟩

theorem legible_of_mem_tokens (member : token ∈ tokens text) : token.Legible := by
  obtain ⟨placed, found, rfl⟩ := List.mem_map.mp member
  exact legible_of_mem_placedTokensFrom found

/-- The spellings of the tokens of a text are spread over it when it has no other characters. -/
theorem spread_of_tokens (plain : ∀ character, .other character ∉ tokens text) :
    Spread ((tokens text).map Token.spelling) text [] := by
  rw [tokens, List.map_map]
  refine spread_of_placedTokensFrom rfl fun placed member => ?_
  refine Token.solid_spelling (legible_of_mem_placedTokensFrom member) fun character same => ?_
  exact plain character (same ▸ List.mem_map_of_mem member)

/-- The spellings of the tokens are laid out in a text without a blank at either end. -/
theorem laid_of_tokens {kinds : List Token} (found : tokens text = kinds)
    (plain : ∀ character, .other character ∉ kinds) (some : kinds ≠ []) (trimmed : Trimmed text) :
    Laid (kinds.map Token.spelling) text := by
  subst found
  exact (spread_of_tokens plain).laid (by simpa using some) trimmed

/-- Legible tokens that are laid out apart are the tokens of the text. -/
theorem tokens_of_laid {kinds : List Token} (laid : Laid (kinds.map Token.spelling) text)
    (legible : ∀ token ∈ kinds, token.Legible) (apart : kinds.IsChain Token.Apart) :
    tokens text = kinds := by
  induction kinds generalizing text with
  | nil => exact absurd rfl laid.ne_nil
  | cons token others ih =>
      obtain ⟨first, legible⟩ := List.forall_mem_cons.mp legible
      cases others with
      | nil =>
          rw [laid.eq_last, tokens_single first]
      | cons next others =>
          obtain ⟨distinct, apart⟩ := List.isChain_cons_cons.mp apart
          obtain ⟨gap, rest, blank, inner, rfl⟩ := laid.exists_next
          obtain ⟨after, shape⟩ := inner.exists_first
          have second := legible next List.mem_cons_self
          have stops : Stops token.goesOn rest :=
            shape ▸ distinct.append (Token.spelling_ne_nil second)
          have behind := stops.behind_gap blank fun _ => Token.goesOn_eq_false_of_isGap
          rw [tokens_spelling first behind, tokens_run blank, ih inner legible apart]

end Zmanim
