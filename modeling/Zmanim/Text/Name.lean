/-! Names of times. -/

namespace Zmanim.Text

/-- A name starts with an ASCII letter or an underscore. -/
def isNameStart (character : Char) : Bool := character == '_' || character.isAlpha

/-- A name goes on with ASCII letters, ASCII digits and underscores. -/
def isNamePart (character : Char) : Bool := character == '_' || character.isAlphanum

/-- The longest name shape at the start of a text, with the text after it. -/
def scanName : List Char → Option (List Char × List Char)
  | [] => none
  | first :: rest =>
      if isNameStart first then
        some (first :: rest.takeWhile isNamePart, rest.dropWhile isNamePart)
      else none

/-- The words that can never name a time. -/
def keywords : List String := ["if", "else"]

/-- An identifier has the shape of a name throughout and is no keyword. -/
def isIdentifier (name : String) : Bool :=
  match name.toList with
  | [] => false
  | first :: rest => isNameStart first && rest.all isNamePart && !keywords.contains name

/-- The longest name at the start of a text, unless it is a keyword. -/
def scanIdentifier (text : List Char) : Option (String × List Char) :=
  match scanName text with
  | some (name, left) =>
      if keywords.contains (String.ofList name) then none else some (String.ofList name, left)
  | none => none

theorem append_of_scanName {text name left : List Char} (found : scanName text = some (name, left)) :
    name ++ left = text := by
  cases text with
  | nil => simp [scanName] at found
  | cons first rest =>
      simp only [scanName] at found
      split at found
      · obtain ⟨rfl, rfl⟩ := Prod.mk.inj (Option.some.inj found)
        simp
      · simp at found

theorem ne_nil_of_scanName {text name left : List Char} (found : scanName text = some (name, left)) :
    name ≠ [] := by
  cases text with
  | nil => simp [scanName] at found
  | cons first rest =>
      simp only [scanName] at found
      split at found
      · obtain ⟨rfl, rfl⟩ := Prod.mk.inj (Option.some.inj found)
        simp
      · simp at found

end Zmanim.Text
