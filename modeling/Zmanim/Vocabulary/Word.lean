/-! Looking up words in closed vocabularies. -/

namespace Zmanim

/-- The vocabularies in which a word is looked up. -/
inductive Vocabulary where
  | direction
  | base
  | referencePoint
deriving DecidableEq, Repr

/-- The name of a vocabulary in a message. -/
def Vocabulary.name : Vocabulary → String
  | .direction => "direction"
  | .base => "base"
  | .referencePoint => "reference point"

/-- A word that its vocabulary does not hold. -/
structure UnknownWord where
  vocabulary : Vocabulary
  word : String
deriving DecidableEq, Repr

def UnknownWord.message (unknown : UnknownWord) : String :=
  "unknown " ++ unknown.vocabulary.name ++ " '" ++ unknown.word ++ "'"

/-- The member of a vocabulary that is written as a word. -/
def Vocabulary.find {Member : Type} (vocabulary : Vocabulary) (members : List Member)
    (token : Member → String) (word : String) : Except UnknownWord Member :=
  match members.find? fun member => token member == word with
  | some member => .ok member
  | none => .error ⟨vocabulary, word⟩

theorem Vocabulary.token_of_find {Member : Type} {vocabulary : Vocabulary} {members : List Member}
    {token : Member → String} {word : String} {member : Member}
    (found : vocabulary.find members token word = .ok member) : token member = word := by
  unfold find at found
  split at found
  · rename_i first known
    obtain rfl := Except.ok.inj found
    simpa using List.find?_some known
  · simp at found

end Zmanim
