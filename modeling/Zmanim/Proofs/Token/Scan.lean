import Zmanim.Proofs.Number.Numeral
import Zmanim.Proofs.Text.Identifier
import Zmanim.Token
/-! Single tokens. -/

namespace Zmanim
open Text

namespace Token

variable {left : List Char} {token : Token}

/-- The characters that go on in a token of some kind. -/
def isInner (character : Char) : Bool := isNamePart character || character == '.'

theorem stops_isNamePart (stops : Stops isInner left) : Stops isNamePart left :=
  stops.anti fun _ part => by simp [isInner, part]

theorem stops_numeral (stops : Stops isInner left) : Stops Numeral.goesOn left := by
  refine stops.anti fun character more => ?_
  simp only [Numeral.goesOn, isInner, Bool.or_eq_true] at more ⊢
  exact more.imp_left isNamePart_of_isDigit

/-- What is added to a text does not change its first token when it goes on in none. -/
theorem scan_append (first : Char) (rest : List Char) (stops : Stops isInner left) :
    scan first (rest ++ left) = ((scan first rest).1, (scan first rest).2 ++ left) := by
  have name : scanName (first :: rest ++ left) =
      (scanName (first :: rest)).map fun found => (found.1, found.2 ++ left) :=
    scanName_append (stops_isNamePart stops)
  have numeral : Numeral.scan (first :: rest ++ left) =
      (Numeral.scan (first :: rest)).map fun found => (found.1, found.2 ++ left) :=
    Numeral.scan_append (stops_numeral stops)
  have reference : scanReference (first :: rest ++ left) =
      (scanReference (first :: rest)).map fun found => (found.1, found.2 ++ left) := by
    by_cases mark : first = '@'
    · subst mark
      exact scanName_append (stops_isNamePart stops)
    · simp [scanReference, mark]
  unfold scan
  rw [← List.cons_append, name, numeral, reference]
  cases scanReference (first :: rest) with
  | some word => rfl
  | none =>
      cases scanName (first :: rest) with
      | some word => rfl
      | none => cases Numeral.scan (first :: rest) <;> rfl

theorem scanReference_eq_none {first : Char} (mark : first ≠ '@') (rest : List Char) :
    scanReference (first :: rest) = none := by
  simp [scanReference, mark]

/-- A character that begins no longer token is a token by itself. -/
theorem scan_mark {character : Char} (outside : isNamePart character = false)
    (alone : character = '@' → Stops isNameStart left) :
    scan character left = (ofCharacter character, left) := by
  have start : isNameStart character = false :=
    Bool.eq_false_iff.mpr fun start => by simp [isNamePart_of_isNameStart start] at outside
  have digit : character.isDigit = false :=
    Bool.eq_false_iff.mpr fun digit => by simp [isNamePart_of_isDigit digit] at outside
  have reference : scanReference (character :: left) = none := by
    by_cases mark : character = '@'
    · subst mark
      exact scanName_eq_none (alone rfl)
    · exact scanReference_eq_none mark left
  have name : scanName (character :: left) = none := scanName_eq_none (stops_cons.mpr start)
  have numeral : Numeral.scan (character :: left) = none :=
    Numeral.scan_eq_none (stops_cons.mpr digit)
  simp only [scan, reference, name, numeral]

theorem isInner_eq_false_of_isBlank {character : Char} (blank : isBlank character = true) :
    isInner character = false := by
  refine Bool.eq_false_iff.mpr fun inner => ?_
  rcases Bool.or_eq_true_iff.mp inner with part | point
  · exact absurd (blank.symm.trans (isBlank_eq_false_of_isNamePart part)) (by decide)
  · rw [beq_iff_eq.mp point] at blank
    exact absurd blank (by decide)

theorem stops_isInner_of_run {blanks : List Char} (blank : Run isBlank blanks) :
    Stops isInner blanks := fun character first =>
  isInner_eq_false_of_isBlank (blank character (List.mem_of_mem_head? first))

/-- A blank is a token by itself, whatever comes after it. -/
theorem scan_blank {character : Char} (blank : isBlank character = true) :
    scan character left = (.other character, left) := by
  have inner := isInner_eq_false_of_isBlank blank
  have same : ofCharacter character = .other character := by
    unfold ofCharacter
    split <;> first | rfl | exact absurd blank (by decide)
  rw [scan_mark (Bool.or_eq_false_iff.mp inner).1, same]
  rintro rfl
  exact absurd blank (by decide)

/-- The tokens that a text can have. -/
def Legible : Token → Prop
  | .name text => NameShaped text
  | .reference text => NameShaped text
  | .number numeral => numeral.WellFormed
  | .other character =>
      isGap character = false ∧ isNamePart character = false ∧
        ofCharacter character = .other character
  | _ => True

/-- The characters that would go on in a token. -/
def goesOn : Token → Char → Bool
  | .name _ => isNamePart
  | .reference _ => isNamePart
  | .number _ => Numeral.goesOn
  | .other character => fun next => character == '@' && isNameStart next
  | _ => fun _ => false

theorem legible_ofCharacter {character : Char} (solid : isGap character = false)
    (outside : isNamePart character = false) : (ofCharacter character).Legible := by
  cases same : ofCharacter character with
  | other shown =>
      have spelled := spelling_ofCharacter character
      rw [same] at spelled
      obtain rfl : shown = character := by simpa [spelling] using spelled
      exact ⟨solid, outside, same⟩
  | name _ | reference _ | number _ =>
      unfold ofCharacter at same
      split at same <;> simp at same
  | _ => trivial

/-- Every token of a text is legible. -/
theorem legible_scan {first : Char} (solid : isGap first = false) (rest : List Char) :
    (scan first rest).1.Legible := by
  unfold scan
  split
  · rename_i found
    unfold scanReference at found
    split at found
    · exact nameShaped_of_scanName found
    · simp at found
  · split
    · rename_i found
      exact nameShaped_of_scanName found
    · rename_i noName
      split
      · rename_i found
        exact Numeral.wellFormed_of_scan found
      · rename_i noNumeral
        refine legible_ofCharacter solid ?_
        have start : isNameStart first = false := by simpa [scanName] using noName
        have digit : first.isDigit = false := by
          simpa [Numeral.scan, List.takeWhile_cons] using noNumeral
        rw [isNamePart_eq, start, digit, Bool.or_false]

/-- A legible token is scanned from its spelling when the text after it does not go on in it. -/
theorem scan_spelling_append (legible : token.Legible) (stops : Stops token.goesOn left) :
    ∃ first rest, token.spelling = first :: rest ∧ isGap first = false ∧
      scan first (rest ++ left) = (token, left) := by
  cases token with
  | name text =>
      have found := NameShaped.scanName_append legible stops
      obtain ⟨first, rest, shape, start, -⟩ := legible
      have mark : first ≠ '@' := by
        rintro rfl
        exact absurd start (by decide)
      rw [shape, List.cons_append] at found
      refine ⟨first, rest, shape, isGap_eq_false_of_isNamePart (isNamePart_of_isNameStart start), ?_⟩
      simp [scan, scanReference_eq_none mark, found, ← shape]
  | reference text =>
      have found : scanReference ('@' :: (text.toList ++ left)) = some (text.toList, left) :=
        NameShaped.scanName_append legible stops
      refine ⟨'@', text.toList, rfl, by decide, ?_⟩
      simp [scan, found]
  | number numeral =>
      have found := Numeral.scan_spelling_append legible stops
      obtain ⟨first, rest, shape, digit⟩ := Numeral.exists_spelling_eq_cons legible
      have mark : first ≠ '@' := by
        rintro rfl
        exact absurd digit (by decide)
      have noName : scanName (first :: (rest ++ left)) = none :=
        scanName_eq_none (stops_cons.mpr (isNameStart_eq_false_of_isDigit digit))
      rw [shape, List.cons_append] at found
      refine ⟨first, rest, shape, isGap_eq_false_of_isNamePart (isNamePart_of_isDigit digit), ?_⟩
      simp [scan, scanReference_eq_none mark, noName, found]
  | other character =>
      obtain ⟨solid, outside, same⟩ := legible
      refine ⟨character, [], rfl, solid, ?_⟩
      rw [List.nil_append, scan_mark outside, same]
      rintro rfl
      simpa [goesOn] using stops
  | sign side => cases side <;> exact ⟨_, [], rfl, by decide, scan_mark (by decide) nofun⟩
  | opening bracket => cases bracket <;> exact ⟨_, [], rfl, by decide, scan_mark (by decide) nofun⟩
  | closing bracket => cases bracket <;> exact ⟨_, [], rfl, by decide, scan_mark (by decide) nofun⟩
  | _ => exact ⟨_, [], rfl, by decide, scan_mark (by decide) nofun⟩

theorem spelling_ne_nil (legible : token.Legible) : token.spelling ≠ [] := by
  obtain ⟨first, rest, shape, -⟩ := scan_spelling_append legible (stops_nil)
  simp [shape]

theorem goesOn_eq_false_of_isGap {character : Char} (gap : isGap character = true) :
    token.goesOn character = false := by
  have part := isNamePart_eq_false_of_isGap gap
  cases token with
  | name | reference => exact part
  | number => exact Numeral.goesOn_eq_false_of_isGap gap
  | other =>
      rw [isNamePart_eq, Bool.or_eq_false_iff] at part
      simp [goesOn, part.1]
  | _ => rfl

/-- What goes on in no token does not go on in a particular one. -/
theorem stops_goesOn (stops : Stops isInner left) : Stops token.goesOn left := by
  have part := stops_isNamePart stops
  cases token with
  | name | reference => exact part
  | number => exact stops_numeral stops
  | other =>
      refine part.anti fun character more => isNamePart_of_isNameStart ?_
      simp only [goesOn, Bool.and_eq_true] at more
      exact more.2
  | _ => exact fun _ _ => rfl

/-- Two tokens are apart when the second does not begin with what would go on in the first. -/
def Apart (first second : Token) : Prop := Stops first.goesOn second.spelling

end Token

end Zmanim
