import Zmanim.Number.Decimal
import Zmanim.Text.Blank
import Zmanim.Text.Name
import Zmanim.Text.Position
import Zmanim.Vocabulary.Direction
/-! Tokens of formula text. -/

namespace Zmanim
open Text

/-- The brackets that enclose arguments and blocks. -/
inductive Bracket where
  | round
  | curly
deriving DecidableEq, Repr

/-- A token is a name, a reference written with an at sign, a numeral or a single character. -/
inductive Token where
  | name (text : String)
  | reference (text : String)
  | number (numeral : Numeral)
  | sign (side : OffsetSide)
  | times
  | over
  | opening (bracket : Bracket)
  | closing (bracket : Bracket)
  | comma
  | other (character : Char)
deriving DecidableEq, Repr

namespace Token

/-- The characters that a token takes in the text. -/
def spelling : Token → List Char
  | .name text => text.toList
  | .reference text => '@' :: text.toList
  | .number numeral => numeral.spelling
  | .sign side => [side.sign]
  | .times => ['*']
  | .over => ['/']
  | .opening .round => ['(']
  | .opening .curly => ['\x7b']
  | .closing .round => [')']
  | .closing .curly => ['\x7d']
  | .comma => [',']
  | .other character => [character]

/-- The token of a character that begins no name, reference or numeral. -/
def ofCharacter : Char → Token
  | '+' => .sign .after
  | '-' => .sign .before
  | '*' => .times
  | '/' => .over
  | '(' => .opening .round
  | ')' => .closing .round
  | '\x7b' => .opening .curly
  | '\x7d' => .closing .curly
  | ',' => .comma
  | character => .other character

@[simp] theorem spelling_ofCharacter (character : Char) :
    (ofCharacter character).spelling = [character] := by
  unfold ofCharacter
  split <;> rfl

/-- The name after an at sign, with the text after it. -/
def scanReference : List Char → Option (List Char × List Char)
  | '@' :: rest => scanName rest
  | _ => none

/-- The longest token at the start of a text, with the text after it. -/
def scan (first : Char) (rest : List Char) : Token × List Char :=
  match scanReference (first :: rest) with
  | some (word, left) => (.reference (String.ofList word), left)
  | none =>
      match scanName (first :: rest) with
      | some (word, left) => (.name (String.ofList word), left)
      | none =>
          match Numeral.scan (first :: rest) with
          | some (numeral, left) => (.number numeral, left)
          | none => (ofCharacter first, rest)

theorem append_of_scanReference {text word left : List Char}
    (found : scanReference text = some (word, left)) : '@' :: word ++ left = text := by
  unfold scanReference at found
  split at found
  · simp [append_of_scanName found]
  · simp at found

/-- Scanning loses no character. -/
theorem spelling_scan (first : Char) (rest : List Char) :
    (scan first rest).1.spelling ++ (scan first rest).2 = first :: rest := by
  unfold scan
  split
  · rename_i found
    simpa [spelling] using append_of_scanReference found
  · split
    · rename_i found
      simpa [spelling] using append_of_scanName found
    · split
      · rename_i found
        simpa [spelling] using Numeral.append_of_scan found
      · simp

theorem spelling_scan_ne_nil (first : Char) (rest : List Char) :
    (scan first rest).1.spelling ≠ [] := by
  unfold scan
  split
  · simp [spelling]
  · split
    · rename_i found
      simpa [spelling] using ne_nil_of_scanName found
    · split
      · rename_i found
        simpa [spelling] using Numeral.spelling_ne_nil_of_scan found
      · simp

theorem length_scan_le (first : Char) (rest : List Char) :
    (scan first rest).2.length ≤ rest.length := by
  have whole := congrArg List.length (spelling_scan first rest)
  have some := List.length_pos_iff.mpr (spelling_scan_ne_nil first rest)
  simp only [List.length_append, List.length_cons] at whole
  omega

end Token

/-- A token with the span of text that it takes. -/
structure PlacedToken where
  token : Token
  span : Span
deriving DecidableEq, Repr

/-- The tokens of a text that begins at a position. -/
def placedTokensFrom (position : Position) : List Char → List PlacedToken
  | [] => []
  | first :: rest =>
      if isGap first then placedTokensFrom (position.step first) rest
      else
        let token := (Token.scan first rest).1
        let stop := position.after token.spelling
        ⟨token, Span.between position stop⟩ :: placedTokensFrom stop (Token.scan first rest).2
termination_by text => text.length
decreasing_by
  all_goals
    have shorter := Token.length_scan_le first rest
    simp only [List.length_cons]
    omega

@[simp] theorem placedTokensFrom_nil (position : Position) : placedTokensFrom position [] = [] := by
  rw [placedTokensFrom]

theorem placedTokensFrom_gap (position : Position) {first : Char} (gap : isGap first = true)
    (rest : List Char) :
    placedTokensFrom position (first :: rest) = placedTokensFrom (position.step first) rest := by
  rw [placedTokensFrom, if_pos gap]

theorem placedTokensFrom_token (position : Position) {first : Char} (gap : isGap first = false)
    (rest : List Char) :
    placedTokensFrom position (first :: rest) =
      ⟨(Token.scan first rest).1,
          Span.between position (position.after (Token.scan first rest).1.spelling)⟩ ::
        placedTokensFrom (position.after (Token.scan first rest).1.spelling)
          (Token.scan first rest).2 := by
  rw [placedTokensFrom, if_neg (by simp [gap])]

/-- The tokens of a text. -/
def placedTokens (text : List Char) : List PlacedToken := placedTokensFrom .start text

end Zmanim
