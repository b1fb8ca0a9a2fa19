import Zmanim.Proofs.Text.Run
/-! Identifiers in a text. -/

namespace Zmanim.Text

variable {text left : List Char} {name : String}

/-- A word has the shape of a name also when it is a keyword. -/
def NameShaped (name : String) : Prop :=
  ∃ first rest, name.toList = first :: rest ∧ isNameStart first = true ∧ Run isNamePart rest

theorem isIdentifier_iff :
    isIdentifier name = true ↔
      ∃ first rest, name.toList = first :: rest ∧ isNameStart first = true ∧ Run isNamePart rest ∧
        name ∉ keywords := by
  unfold isIdentifier
  split
  · rename_i empty
    simp [empty]
  · rename_i first rest shape
    simp only [shape, List.cons.injEq, Bool.and_eq_true, Bool.not_eq_true', List.all_eq_true,
      List.contains_eq_mem, decide_eq_false_iff_not]
    constructor
    · rintro ⟨⟨start, parts⟩, free⟩
      exact ⟨first, rest, ⟨rfl, rfl⟩, start, parts, free⟩
    · rintro ⟨_, _, ⟨rfl, rfl⟩, start, parts, free⟩
      exact ⟨⟨start, parts⟩, free⟩

/-- An identifier is a word with the shape of a name other than a keyword. -/
theorem isIdentifier_iff_nameShaped :
    isIdentifier name = true ↔ NameShaped name ∧ name ∉ keywords := by
  rw [isIdentifier_iff]
  constructor
  · rintro ⟨first, rest, shape, start, parts, free⟩
    exact ⟨⟨first, rest, shape, start, parts⟩, free⟩
  · rintro ⟨⟨first, rest, shape, start, parts⟩, free⟩
    exact ⟨first, rest, shape, start, parts, free⟩

theorem nameShaped_of_isIdentifier (identifier : isIdentifier name = true) : NameShaped name :=
  (isIdentifier_iff_nameShaped.mp identifier).1

theorem NameShaped.run (shaped : NameShaped name) : Run isNamePart name.toList := by
  obtain ⟨first, rest, shape, start, parts⟩ := shaped
  rw [shape]
  exact run_cons.mpr ⟨isNamePart_of_isNameStart start, parts⟩

theorem NameShaped.ne_nil (shaped : NameShaped name) : name.toList ≠ [] := by
  obtain ⟨first, rest, shape, -⟩ := shaped
  simp [shape]

theorem isEmpty_of_isIdentifier (identifier : isIdentifier name = true) : name.isEmpty = false := by
  simpa using (nameShaped_of_isIdentifier identifier).ne_nil

/-- The scan for a name takes a name that the text after it does not continue. -/
theorem scanName_eq_some_iff {word : List Char} :
    scanName text = some (word, left) ↔
      ∃ first rest, word = first :: rest ∧ isNameStart first = true ∧ Run isNamePart rest ∧
        text = word ++ left ∧ Stops isNamePart left := by
  constructor
  · intro found
    cases text with
    | nil => simp [scanName] at found
    | cons first rest =>
        simp only [scanName] at found
        split at found
        · rename_i start
          obtain ⟨rfl, rfl⟩ := Prod.mk.inj (Option.some.inj found)
          refine ⟨first, _, rfl, start, run_takeWhile rest, ?_, stops_dropWhile rest⟩
          simp
        · simp at found
  · rintro ⟨first, rest, rfl, start, parts, rfl, stops⟩
    simp [scanName, start, parts.takeWhile_append stops, parts.dropWhile_append stops]

theorem scanName_eq_none (stops : Stops isNameStart text) : scanName text = none := by
  cases text with
  | nil => rfl
  | cons first rest => simp [scanName, stops_cons.mp stops]

theorem nameShaped_of_scanName {word : List Char} (found : scanName text = some (word, left)) :
    NameShaped (String.ofList word) := by
  obtain ⟨first, rest, rfl, start, parts, -⟩ := scanName_eq_some_iff.mp found
  exact ⟨first, rest, String.toList_ofList, start, parts⟩

/-- A word with the shape of a name is scanned whole when the text after it does not go on in it. -/
theorem NameShaped.scanName_append (shaped : NameShaped name) (stops : Stops isNamePart left) :
    scanName (name.toList ++ left) = some (name.toList, left) := by
  obtain ⟨first, rest, shape, start, parts⟩ := shaped
  exact scanName_eq_some_iff.mpr ⟨first, rest, shape, start, parts, rfl, stops⟩

/-- What is added to a text does not change its first name when it does not go on in names. -/
theorem scanName_append (stops : Stops isNamePart left) :
    scanName (text ++ left) =
      (scanName text).map fun found => (found.1, found.2 ++ left) := by
  cases text with
  | nil =>
      exact scanName_eq_none (stops.anti fun _ => isNamePart_of_isNameStart)
  | cons first rest =>
      simp only [List.cons_append, scanName, stops.takeWhile_append, stops.dropWhile_append]
      split <;> rfl

/-- The scan for an identifier takes an identifier that the text after it does not continue. -/
theorem scanIdentifier_eq_some_iff :
    scanIdentifier text = some (name, left) ↔
      isIdentifier name = true ∧ text = name.toList ++ left ∧ Stops isNamePart left := by
  constructor
  · intro found
    unfold scanIdentifier at found
    split at found
    · rename_i word rest scanned
      obtain ⟨first, parts, rfl, start, run, shape, stops⟩ := scanName_eq_some_iff.mp scanned
      split at found
      · simp at found
      · rename_i free
        obtain ⟨rfl, rfl⟩ := Prod.mk.inj (Option.some.inj found)
        rw [String.toList_ofList]
        have free : String.ofList (first :: parts) ∉ keywords := by simpa using free
        have identifier : isIdentifier (String.ofList (first :: parts)) = true :=
          isIdentifier_iff.mpr ⟨first, parts, String.toList_ofList, start, run, free⟩
        exact ⟨identifier, shape, stops⟩
    · simp at found
  · rintro ⟨identifier, rfl, stops⟩
    obtain ⟨first, parts, shape, start, run, free⟩ := isIdentifier_iff.mp identifier
    have scanned : scanName (name.toList ++ left) = some (name.toList, left) :=
      scanName_eq_some_iff.mpr ⟨first, parts, shape, start, run, rfl, stops⟩
    simp [scanIdentifier, scanned, free]

end Zmanim.Text
