import Zmanim.Proofs.Text.Span
import Zmanim.Proofs.Token.Sequence
/-! Lexemes. -/

namespace Zmanim
open Text

variable {text left : List Char} {name : String} {token : Token} {placed : PlacedToken}
  {position : Position}

namespace Text

/-- A name that a text begins with is scanned, or a longer one is. -/
theorem exists_scanName (shaped : NameShaped name) (spelled : name.toList <+: text) :
    ∃ word left, scanName text = some (word, left) ∧ name.toList.length ≤ word.length := by
  obtain ⟨more, rfl⟩ := spelled
  obtain ⟨first, rest, shape, start, parts⟩ := shaped
  rw [shape]
  refine ⟨first :: (rest ++ more).takeWhile isNamePart, (rest ++ more).dropWhile isNamePart, ?_, ?_⟩
  · simp [scanName, start]
  · rw [List.takeWhile_append_of_pos parts]
    simp

theorem NameShaped.concat {character : Char} (shaped : NameShaped name)
    (part : isNamePart character = true) : NameShaped (String.ofList (name.toList ++ [character])) := by
  obtain ⟨first, rest, shape, start, parts⟩ := shaped
  refine ⟨first, rest ++ [character], by simp [shape], start, ?_⟩
  exact run_append.mpr ⟨parts, run_cons.mpr ⟨part, run_nil⟩⟩

end Text

namespace Numeral

theorem length_whole_le (numeral : Numeral) : numeral.whole.length ≤ numeral.spelling.length := by
  unfold spelling
  split <;> simp

theorem scan_eq_some (digits : text.takeWhile Char.isDigit ≠ []) :
    scan text = some (⟨text.takeWhile Char.isDigit, (scanFraction (text.dropWhile Char.isDigit)).1⟩,
      (scanFraction (text.dropWhile Char.isDigit)).2) := by
  rw [scan, if_neg digits]

/-- The fraction that is scanned behind a point has all digits that stand there. -/
theorem length_le_scanFraction {fraction more : List Char} (digits : Run Char.isDigit fraction)
    (nonempty : fraction ≠ []) :
    fraction.length ≤ (scanFraction ('.' :: (fraction ++ more))).1.length := by
  have longer : (fraction ++ more).takeWhile Char.isDigit = fraction ++ more.takeWhile Char.isDigit :=
    List.takeWhile_append_of_pos digits
  simp [scanFraction, longer, nonempty]

/-- A numeral that a text begins with is scanned, or a longer one is. -/
theorem exists_scan {numeral : Numeral} (wellFormed : numeral.WellFormed)
    (spelled : numeral.spelling <+: text) :
    ∃ longest left, scan text = some (longest, left) ∧
      numeral.spelling.length ≤ longest.spelling.length := by
  obtain ⟨more, rfl⟩ := spelled
  obtain ⟨nonempty, digits, decimals⟩ := wellFormed
  by_cases short : numeral.fraction = []
  · have alone : numeral.spelling = numeral.whole := if_pos short
    have first : (numeral.whole ++ more).takeWhile Char.isDigit =
        numeral.whole ++ more.takeWhile Char.isDigit := List.takeWhile_append_of_pos digits
    rw [alone]
    refine ⟨_, _, scan_eq_some (by simp [first, nonempty]), ?_⟩
    refine Nat.le_trans ?_ (length_whole_le _)
    simp [first]
  · have both : numeral.spelling = numeral.whole ++ '.' :: numeral.fraction := if_neg short
    have point : Stops Char.isDigit ('.' :: (numeral.fraction ++ more)) := by simp
    have first := digits.takeWhile_append point
    have rest := digits.dropWhile_append point
    have longer : numeral.fraction.length ≤
        (scanFraction ('.' :: (numeral.fraction ++ more))).1.length :=
      length_le_scanFraction decimals short
    have some : (scanFraction ('.' :: (numeral.fraction ++ more))).1 ≠ [] := fun none =>
      short (List.eq_nil_of_length_eq_zero (by simpa [none] using longer))
    rw [both, List.append_assoc, List.cons_append]
    refine ⟨_, _, scan_eq_some (by simp [first, nonempty]), ?_⟩
    rw [first, rest, spelling, if_neg some]
    simpa using longer

end Numeral

namespace Token

theorem scan_reference {word : List Char} (found : scanName text = some (word, left)) :
    scan '@' text = (.reference (String.ofList word), left) := by
  simp [scan, scanReference, found]

theorem scan_name {first : Char} {word : List Char}
    (found : scanName (first :: text) = some (word, left)) :
    scan first text = (.name (String.ofList word), left) := by
  have mark : first ≠ '@' := by
    rintro rfl
    simp [scanName, isNameStart] at found
  simp [scan, scanReference_eq_none mark, found]

theorem scan_number {first : Char} {numeral : Numeral}
    (found : Numeral.scan (first :: text) = some (numeral, left)) :
    scan first text = (.number numeral, left) := by
  have digit : first.isDigit = true := by
    by_contra other
    simp [Numeral.scan, other] at found
  have mark : first ≠ '@' := by
    rintro rfl
    exact absurd digit (by decide)
  have noName : scanName (first :: text) = none :=
    scanName_eq_none (stops_cons.mpr (isNameStart_eq_false_of_isDigit digit))
  simp [scan, scanReference_eq_none mark, noName, found]

/-- A token is the longest where it is spelled when no legible token is longer there. -/
def Longest (token : Token) (left : List Char) : Prop :=
  ∀ other : Token, other.Legible → other.spelling <+: token.spelling ++ left →
    other.spelling.length ≤ token.spelling.length

/-- The scan takes the longest token. -/
theorem longest_scan (first : Char) (rest : List Char) :
    (scan first rest).1.Longest (scan first rest).2 := by
  intro other legible spelled
  rw [spelling_scan] at spelled
  have single : 1 ≤ (scan first rest).1.spelling.length :=
    List.length_pos_iff.mpr (spelling_scan_ne_nil first rest)
  cases other with
  | name name =>
      obtain ⟨word, left, found, longer⟩ := exists_scanName legible spelled
      rw [scan_name found]
      simpa [spelling] using longer
  | reference name =>
      obtain ⟨rfl, inside⟩ := List.cons_prefix_cons.mp spelled
      obtain ⟨word, left, found, longer⟩ := exists_scanName legible inside
      rw [scan_reference found]
      simpa [spelling] using longer
  | number numeral =>
      obtain ⟨longest, left, found, longer⟩ := Numeral.exists_scan legible spelled
      rw [scan_number found]
      exact longer
  | opening bracket => cases bracket <;> exact single
  | closing bracket => cases bracket <;> exact single
  | _ => exact single

/-- What comes after the longest name does not go on in it, and neither with an at sign. -/
theorem Longest.stops (longest : token.Longest left) (shaped : NameShaped name)
    (named : token = .name name ∨ token = .reference name) : Stops isNamePart left := by
  intro character next
  obtain ⟨rest, rfl⟩ : ∃ rest, left = character :: rest :=
    List.head?_eq_some_iff.mp next
  by_contra more
  have longer := shaped.concat (Bool.not_eq_false _ ▸ more)
  rcases named with rfl | rfl
  · have most := longest (.name _) longer ⟨rest, by simp [spelling]⟩
    simp only [spelling, String.toList_ofList, List.length_append, List.length_singleton] at most
    omega
  · have most := longest (.reference _) longer ⟨rest, by simp [spelling]⟩
    simp only [spelling, String.toList_ofList, List.length_cons, List.length_append,
      List.length_nil] at most
    omega

/-- No token has a gap in it. -/
theorem isGap_eq_false_of_mem {character : Char} (legible : token.Legible)
    (member : character ∈ token.spelling) : isGap character = false := by
  by_cases plain : ∀ other, token ≠ .other other
  · have solid := (solid_spelling legible plain).blankless character member
    exact Bool.eq_false_iff.mpr fun gap => by simp [isBlank_of_isGap gap] at solid
  · simp only [not_forall, not_not] at plain
    obtain ⟨other, rfl⟩ := plain
    obtain rfl : character = other := List.mem_singleton.mp member
    exact legible.1

end Token

/-- A token stands in a text when its span covers its spelling there, and it is the longest token that
is legible at that place. -/
structure PlacedToken.StandsIn (placed : PlacedToken) (text before after : List Char) : Prop where
  spelled : text = before ++ (placed.token.spelling ++ after)
  span : placed.span.Covers before placed.token.spelling
  nonempty : placed.span.start < placed.span.stop
  legible : placed.token.Legible
  longest : placed.token.Longest after
  ends : ∀ name, placed.token = .name name ∨ placed.token = .reference name →
    NameShaped name ∧ Stops isNamePart after

/-- Tokens lose nothing of a text when their spans follow one another over it, each token stands in it,
and the characters that no span holds are the gaps. -/
structure Lossless (text : List Char) (tokens : List PlacedToken) : Prop where
  ordered : tokens.Pairwise fun first second => first.span.stop ≤ second.span.start
  stands : ∀ placed ∈ tokens, ∃ before after, placed.StandsIn text before after
  gaps : ∀ before character after, text = before ++ character :: after →
    (isGap character = true ↔ ∀ placed ∈ tokens, ¬ placed.span.Holds (bytes before))

theorem offset_le_start (member : placed ∈ placedTokensFrom position text) :
    position.offset ≤ placed.span.start := by
  obtain ⟨before, -, -, -, -, rfl⟩ := exists_scan_of_mem member
  exact position.offset_le_after before

/-- A token stops before the next one starts. -/
theorem pairwise_placedTokensFrom (position : Position) (text : List Char) :
    (placedTokensFrom position text).Pairwise fun first second =>
      first.span.stop ≤ second.span.start := by
  fun_induction placedTokensFrom position text with
  | case1 => exact .nil
  | case2 position first rest gap ih => exact ih
  | case3 position first rest gap token stop ih =>
      exact List.pairwise_cons.mpr ⟨fun _ member => offset_le_start member, ih⟩

theorem exists_standsIn (member : placed ∈ placedTokens text) :
    ∃ before after, placed.StandsIn text before after := by
  have legible := legible_of_mem_placedTokensFrom member
  obtain ⟨before, first, rest, rfl, solid, rfl⟩ := exists_scan_of_mem member
  have covers := Span.covers_between before (Token.scan first rest).1.spelling
  have longest := Token.longest_scan first rest
  refine ⟨before, (Token.scan first rest).2, by rw [Token.spelling_scan], covers,
    covers.start_lt_stop (Token.spelling_scan_ne_nil first rest), legible, longest, ?_⟩
  intro name named
  have shaped : NameShaped name := by rcases named with same | same <;> rwa [same] at legible
  exact ⟨shaped, longest.stops shaped named⟩

/-- The characters of a token are no gaps, and its span holds their places. -/
theorem holds_of_spelling {before after : List Char} {character : Char} (position : Position)
    (legible : token.Legible) (shape : token.spelling = before ++ character :: after) :
    isGap character = false ∧
      (Span.between position (position.after token.spelling)).Holds (position.after before).offset := by
  have size := character.utf8Size_pos
  refine ⟨Token.isGap_eq_false_of_mem legible (by simp [shape]), position.offset_le_after before, ?_⟩
  change (position.after before).offset < (position.after token.spelling).offset
  rw [shape, Position.offset_after_eq, Position.offset_after_eq, bytes_append, bytes_cons]
  omega

/-- A character of a text is a gap exactly when no token holds its place. -/
theorem isGap_iff_not_holds (position : Position) (text : List Char) :
    ∀ before character after, text = before ++ character :: after →
      (isGap character = true ↔ ∀ placed ∈ placedTokensFrom position text,
        ¬ placed.span.Holds (position.after before).offset) := by
  fun_induction placedTokensFrom position text with
  | case1 => simp
  | case2 position first rest gap ih =>
      intro before character after shape
      cases before with
      | nil =>
          obtain ⟨rfl, rfl⟩ := List.cons.inj shape
          refine iff_of_true gap fun placed member holds => ?_
          have further := Nat.le_trans (offset_le_start member) holds.1
          have size := first.utf8Size_pos
          rw [Position.offset_step, Position.after_nil] at further
          omega
      | cons next before =>
          rw [List.cons_append] at shape
          obtain ⟨rfl, same⟩ := List.cons.inj shape
          exact ih before character after same
  | case3 position first rest gap token stop ih =>
      intro before character after shape
      have legible : token.Legible := Token.legible_scan (Bool.eq_false_iff.mpr gap) rest
      rw [← Token.spelling_scan first rest, List.append_eq_append_iff] at shape
      rw [List.forall_mem_cons]
      have behind (more : List Char) (past : before = token.spelling ++ more)
          (same : (Token.scan first rest).2 = more ++ character :: after) :
          isGap character = true ↔
            ¬ (Span.between position stop).Holds (position.after before).offset ∧
            ∀ placed ∈ placedTokensFrom stop (Token.scan first rest).2,
              ¬ placed.span.Holds (position.after before).offset := by
        have reached : position.after before = stop.after more := by
          rw [past, Position.after_append]
        have outside : ¬ (Span.between position stop).Holds (position.after before).offset :=
          fun holds => Nat.not_lt.mpr (reached ▸ stop.offset_le_after more) holds.2
        rw [ih more character after same, ← reached]
        exact (and_iff_right outside).symm
      rcases shape with ⟨more, past, same⟩ | ⟨more, inside, same⟩
      · exact behind more past same
      · cases more with
        | nil => exact behind [] (by simpa using inside.symm) (by simpa using same.symm)
        | cons next more =>
            obtain ⟨rfl, -⟩ := List.cons.inj same
            obtain ⟨solid, holds⟩ := holds_of_spelling position legible inside
            exact iff_of_false (by simp [solid]) fun outside => outside.1 holds

/-- The tokens of a text lose nothing of it: each is the longest at its place and has the span of its
spelling there, and what stands in no span is a gap. -/
theorem lossless_placedTokens (text : String) :
    Lossless text.toList (placedTokens text.toList) where
  ordered := pairwise_placedTokensFrom .start text.toList
  stands _ member := exists_standsIn member
  gaps before character after shape := by
    rw [isGap_iff_not_holds .start text.toList before character after shape,
      Position.offset_start_after]
    rfl

/-- A point without a digit behind it is no part of a number. -/
example : tokens "7.é".toList = [.number ⟨['7'], []⟩, .other '.', .other 'é'] := by
  decide +kernel

end Zmanim
