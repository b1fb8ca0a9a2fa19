import Mathlib.Data.List.Basic
import Zmanim.Formula.Reader
import Zmanim.Proofs.Formula.Grammar
/-! What readers read. -/

namespace Zmanim
open Text

variable {part text left : List Char} {parts others : List (List Char)} {Value : Type}

namespace Reader

/-- A reader reads solid spellings of its values, and it takes a spelling whole when the text after
it does not continue it. A gap continues nothing. -/
structure Reads (reader : Reader Value) (spelled : Value → List Char → Prop)
    (continued : Char → Bool) : Prop where
  sound : ∀ {text value left}, reader text = .ok (value, left) →
    ∃ part, spelled value part ∧ text = part ++ left
  complete : ∀ {value part left}, spelled value part → Stops continued left →
    reader (part ++ left) = .ok (value, left)
  solid : ∀ {value part}, spelled value part → Solid part
  apart : ∀ character, isGap character = true → continued character = false

theorem bind_eq_ok_iff {Next : Type} {reader : Reader Value} {next : Value → Reader Next}
    {result : Next × List Char} :
    (reader >>= next) text = .ok result ↔
      ∃ value middle, reader text = .ok (value, middle) ∧ next value middle = .ok result := by
  rw [bind_apply]
  cases reader text with
  | ok taken =>
      constructor
      · intro read
        exact ⟨taken.1, taken.2, rfl, read⟩
      · rintro ⟨value, middle, same, read⟩
        rw [Except.ok.inj same]
        exact read
  | error notes => simp

theorem expecting_eq_ok_iff {part : Expectation} {reader : Reader Value}
    {result : Value × List Char} :
    expecting part reader text = .ok result ↔ reader text = .ok result := by
  unfold expecting
  split <;> simp_all

theorem either_eq_ok_iff {first second : Reader Value} {result : Value × List Char} :
    either first second text = .ok result ↔
      first text = .ok result ∨
        (∃ notes, first text = .error notes) ∧ second text = .ok result := by
  unfold either
  split
  · simp_all
  · split <;> simp_all

theorem ofScan_eq_ok_iff {cause : Cause} {scan : List Char → Option (Value × List Char)}
    {result : Value × List Char} :
    ofScan cause scan text = .ok result ↔ scan text = some result := by
  unfold ofScan
  split <;> simp_all

theorem spaced_eq_ok_iff {reader : Reader Value} {value : Value} :
    spaced reader text = .ok (value, left) ↔
      ∃ rest, reader (text.dropWhile isGap) = .ok (value, rest) ∧ rest.dropWhile isGap = left := by
  rw [spaced_apply]
  split
  · rename_i found rest read
    simp only [read, Except.ok.injEq, Prod.mk.injEq]
    constructor
    · rintro ⟨rfl, rfl⟩
      exact ⟨rest, ⟨rfl, rfl⟩, rfl⟩
    · rintro ⟨_, ⟨rfl, rfl⟩, rfl⟩
      exact ⟨rfl, rfl⟩
  · rename_i stopped
    simp [stopped]

/-- What is left after a part between gaps does not begin with a gap. -/
theorem stops_of_spaced {reader : Reader Value} {value : Value}
    (taken : spaced reader text = .ok (value, left)) : Stops isGap left := by
  obtain ⟨rest, -, rfl⟩ := spaced_eq_ok_iff.mp taken
  exact stops_dropWhile rest

/-- A part that is read between gaps is spread over the text that is taken. -/
theorem Reads.spread {reader : Reader Value} {spelled : Value → List Char → Prop}
    {continued : Char → Bool} {value : Value} (reads : reader.Reads spelled continued)
    (taken : spaced reader text = .ok (value, left)) :
    ∃ part, spelled value part ∧ Spread [part] text left := by
  obtain ⟨rest, read, rfl⟩ := spaced_eq_ok_iff.mp taken
  obtain ⟨part, spells, shape⟩ := reads.sound read
  refine ⟨part, spells, ?_⟩
  have first := Spread.next (text.takeWhile isGap) part (run_takeWhile text) (reads.solid spells)
    (Spread.done (rest.takeWhile isGap) (rest.dropWhile isGap) (run_takeWhile rest))
  rwa [List.takeWhile_append_dropWhile, ← shape, List.takeWhile_append_dropWhile] at first

/-- The first of the parts that are spread over a text is read between its gaps. -/
theorem Reads.spaced_of_spread {reader : Reader Value} {spelled : Value → List Char → Prop}
    {continued : Char → Bool} {value : Value} (reads : reader.Reads spelled continued)
    (spells : spelled value part) (spread : Spread (part :: parts) text left)
    (stops : Stops isGap left) (ends : Stops continued (parts.flatten ++ left)) :
    ∃ middle, spaced reader text = .ok (value, middle) ∧ Spread parts middle left ∧
      Stops isGap middle := by
  cases spread with
  | @next gap part parts rest left blank solid spread =>
      have starts : Stops isGap (part ++ rest) := solid.stops_append
      have begins := blank.dropWhile_append starts
      have read := reads.complete spells (spread.stops reads.apart ends)
      rw [← begins] at read
      exact ⟨rest.dropWhile isGap, spaced_eq_ok_iff.mpr ⟨rest, read, rfl⟩, spread.dropWhile stops,
        stops_dropWhile rest⟩

/-- A reader of the same spellings reads the same parts. -/
theorem Reads.congr {reader : Reader Value} {spelled other : Value → List Char → Prop}
    {continued : Char → Bool} (reads : reader.Reads spelled continued)
    (same : ∀ value part, spelled value part ↔ other value part) :
    reader.Reads other continued := by
  have equal : spelled = other := by
    funext value part
    exact propext (same value part)
  exact equal ▸ reads

theorem meaning_reads (find : String → Option Value) :
    (meaning find).Reads
      (fun value part => ∃ name, isIdentifier name = true ∧ find name = some value ∧
        part = name.toList)
      isNamePart where
  sound read := by
    have scanned := ofScan_eq_ok_iff.mp read
    split at scanned
    · rename_i name rest found
      obtain ⟨identifier, shape, -⟩ := scanIdentifier_eq_some_iff.mp found
      obtain ⟨value, known, same⟩ := Option.map_eq_some_iff.mp scanned
      obtain ⟨rfl, rfl⟩ := Prod.mk.inj same
      exact ⟨name.toList, ⟨name, identifier, known, rfl⟩, shape⟩
    · simp at scanned
  complete := by
    rintro value _ left ⟨name, identifier, known, rfl⟩ stops
    have found := scanIdentifier_eq_some_iff.mpr ⟨identifier, rfl, stops⟩
    exact ofScan_eq_ok_iff.mpr (by simp [found, known])
  solid := by
    rintro value _ ⟨name, identifier, -, rfl⟩
    exact .of_isIdentifier identifier
  apart _ := isNamePart_eq_false_of_isGap

theorem identifier_reads :
    identifier.Reads (fun name part => isIdentifier name = true ∧ part = name.toList)
      isNamePart := by
  have itself : identifier = meaning some := by
    funext text
    simp only [identifier, meaning, ofScan]
    cases scanIdentifier text <;> rfl
  rw [itself]
  refine (meaning_reads some).congr fun value part => ?_
  simp

theorem word_reads {expected : String} (identifier : isIdentifier expected = true) :
    (word expected).Reads (fun _ part => part = expected.toList) isNamePart := by
  refine (meaning_reads _).congr fun value part => ?_
  constructor
  · rintro ⟨name, -, known, rfl⟩
    by_cases same : name = expected
    · rw [same]
    · simp [same] at known
  · rintro rfl
    exact ⟨expected, identifier, by simp, rfl⟩

theorem direction_reads :
    direction.Reads (fun direction part => part = direction.token.toList) isNamePart := by
  refine (meaning_reads _).congr fun value part => ?_
  constructor
  · rintro ⟨name, -, known, rfl⟩
    cases found : SolarDirection.ofToken name with
    | ok direction =>
        rw [found] at known
        obtain rfl : direction = value := Option.some.inj known
        rw [Vocabulary.token_of_find found]
    | error unknown => simp [found, Except.toOption] at known
  · rintro rfl
    exact ⟨value.token, value.isIdentifier_token, by cases value <;> rfl, rfl⟩

theorem standardDay_reads :
    standardDay.Reads
      (fun day part => ∃ standard, day = .standard standard ∧ part = standard.token.toList)
      isNamePart := by
  refine (meaning_reads _).congr fun value part => ?_
  constructor
  · rintro ⟨name, -, known, rfl⟩
    split at known
    · rename_i standard found
      exact ⟨standard, (Option.some.inj known).symm, by rw [← Vocabulary.token_of_find found]; rfl⟩
    · simp at known
  · rintro ⟨standard, rfl, rfl⟩
    exact ⟨standard.token, standard.isIdentifier_token, by cases standard <;> rfl, rfl⟩

theorem character_reads {expected : Char} (outside : isBlank expected = false) :
    (character expected).Reads (fun _ part => part = [expected]) (fun _ => false) where
  sound {text _ left} read := by
    have scanned := ofScan_eq_ok_iff.mp read
    cases text with
    | nil => simp at scanned
    | cons first rest =>
        by_cases same : first = expected
        · simp only [same, if_pos, Option.some.injEq, Prod.mk.injEq] at scanned
          exact ⟨[expected], rfl, by rw [same, scanned.2]; rfl⟩
        · simp [same] at scanned
  complete := by
    rintro value _ left rfl -
    exact ofScan_eq_ok_iff.mpr (by simp)
  solid := by
    rintro value _ rfl
    exact .mark outside
  apart _ _ := rfl

theorem sign_reads : sign.Reads (fun side part => part = [side.sign]) (fun _ => false) where
  sound {text _ left} read := by
    have scanned := ofScan_eq_ok_iff.mp read
    cases text with
    | nil => simp at scanned
    | cons first rest =>
        obtain ⟨side, known, same⟩ := Option.map_eq_some_iff.mp scanned
        obtain ⟨rfl, rfl⟩ := Prod.mk.inj same
        exact ⟨[side.sign], rfl, by rw [OffsetSide.sign_of_ofSign? known]; rfl⟩
  complete := by
    rintro side _ left rfl -
    exact ofScan_eq_ok_iff.mpr (by simp)
  solid := by
    rintro side _ rfl
    exact .mark (by cases side <;> decide)
  apart _ _ := rfl

theorem reference_reads :
    reference.Reads (fun name part => isIdentifier name = true ∧ part = '@' :: name.toList)
      isNamePart where
  sound read := by
    obtain ⟨_, middle, mark, taken⟩ := bind_eq_ok_iff.mp read
    obtain ⟨_, rfl, rfl⟩ := (character_reads (by decide)).sound mark
    obtain ⟨_, ⟨identifier, rfl⟩, rfl⟩ := identifier_reads.sound taken
    exact ⟨_, ⟨identifier, rfl⟩, rfl⟩
  complete := by
    rintro name _ left ⟨identifier, rfl⟩ stops
    have mark : character '@' (['@'] ++ (name.toList ++ left)) = .ok ((), name.toList ++ left) :=
      (character_reads (by decide)).complete rfl fun _ _ => rfl
    exact bind_eq_ok_iff.mpr
      ⟨(), name.toList ++ left, mark, identifier_reads.complete ⟨identifier, rfl⟩ stops⟩
  solid := by
    rintro name _ ⟨identifier, rfl⟩
    exact (Solid.of_isIdentifier identifier).cons (by decide)
  apart _ := isNamePart_eq_false_of_isGap

theorem zman_reads :
    zman.Reads (fun name part => isIdentifier name = true ∧ part ∈ nameSpellings name)
      isNamePart where
  sound {text name left} read := by
    unfold zman at read
    split at read
    · obtain ⟨_, ⟨identifier, rfl⟩, rfl⟩ := identifier_reads.sound read
      exact ⟨'@' :: name.toList, ⟨identifier, by simp [nameSpellings]⟩, rfl⟩
    · obtain ⟨_, ⟨identifier, rfl⟩, shape⟩ := identifier_reads.sound read
      exact ⟨name.toList, ⟨identifier, by simp [nameSpellings]⟩, shape⟩
  complete := by
    rintro name part left ⟨identifier, spells⟩ stops
    have read := identifier_reads.complete ⟨identifier, rfl⟩ stops
    simp only [nameSpellings, List.mem_cons, List.not_mem_nil, or_false] at spells
    rcases spells with rfl | rfl
    · obtain ⟨first, rest, shape, start, -⟩ := isIdentifier_iff.mp identifier
      unfold zman
      split
      · rename_i word same
        rw [shape, List.cons_append, List.cons.injEq] at same
        exact absurd (same.1 ▸ start) (by decide)
      · exact read
    · exact read
  solid spells := .of_mem_nameSpellings spells.1 spells.2
  apart _ := isNamePart_eq_false_of_isGap

theorem number_reads :
    number.Reads
      (fun value part => ∃ numeral : Numeral, numeral.WellFormed ∧
        value = .ofDecimal numeral.value ∧ part = numeral.spelling)
      Numeral.goesOn where
  sound read := by
    obtain ⟨⟨numeral, rest⟩, found, same⟩ := Option.map_eq_some_iff.mp (ofScan_eq_ok_iff.mp read)
    obtain ⟨rfl, rfl⟩ := Prod.mk.inj same
    exact ⟨numeral.spelling, ⟨numeral, Numeral.wellFormed_of_scan found, rfl, rfl⟩,
      (Numeral.append_of_scan found).symm⟩
  complete := by
    rintro _ _ left ⟨numeral, wellFormed, rfl, rfl⟩ stops
    exact ofScan_eq_ok_iff.mpr (by simp [Numeral.scan_spelling_append wellFormed stops])
  solid := by
    rintro _ _ ⟨numeral, wellFormed, -, rfl⟩
    exact .of_wellFormed wellFormed
  apart _ := Numeral.goesOn_eq_false_of_isGap

theorem minutes_reads :
    minutes.Reads
      (fun value part => part ≠ [] ∧ Run Char.isDigit part ∧
        Nat.ofDigitChars 10 part 0 < UInt32.size ∧
        value = UInt32.ofNat (Nat.ofDigitChars 10 part 0))
      Char.isDigit where
  sound {text _ _} read := by
    have scanned := ofScan_eq_ok_iff.mp read
    simp only at scanned
    split at scanned
    · rename_i fits
      obtain ⟨rfl, rfl⟩ := Prod.mk.inj (Option.some.inj scanned)
      exact ⟨text.takeWhile Char.isDigit, ⟨fits.1, run_takeWhile text, fits.2, rfl⟩,
        List.takeWhile_append_dropWhile.symm⟩
    · simp at scanned
  complete := by
    rintro _ part left ⟨nonempty, digits, fits, rfl⟩ stops
    refine ofScan_eq_ok_iff.mpr ?_
    simp only [digits.takeWhile_append stops, digits.dropWhile_append stops]
    exact if_pos ⟨nonempty, fits⟩
  solid spells := .of_digits spells.1 spells.2.1
  apart _ := isDigit_eq_false_of_isGap

/-- A name that nothing continues is read as it stands. -/
theorem spaced_zman_append {name : String} (identifier : isIdentifier name = true)
    (ends : Stops isNamePart left) (stops : Stops isGap left) :
    spaced zman (name.toList ++ left) = .ok (name, left) := by
  have start : Stops isGap (name.toList ++ left) :=
    (Solid.of_isIdentifier identifier).stops_append
  have front : (name.toList ++ left).dropWhile isGap = name.toList ++ left :=
    run_nil.dropWhile_append start
  have back : left.dropWhile isGap = left := run_nil.dropWhile_append stops
  have read := zman_reads.complete ⟨identifier, List.mem_cons_self⟩ ends
  rw [← front] at read
  exact spaced_eq_ok_iff.mpr ⟨left, read, back⟩

theorem literal_eq_ok_iff {expected : List Char} :
    literal expected text = .ok ((), left) ↔ text = expected ++ left := by
  rw [literal, ofScan_eq_ok_iff, Option.map_eq_some_iff]
  simp [List.isPrefixOf?_eq_some_iff_append_eq, eq_comm]

/-- A text that does not begin with a gap begins with the part that is read between gaps. -/
theorem Reads.exists_append {reader : Reader Value} {spelled : Value → List Char → Prop}
    {continued : Char → Bool} {value : Value} (reads : reader.Reads spelled continued)
    (stops : Stops isGap text) (taken : spaced reader text = .ok (value, left)) :
    ∃ part rest, spelled value part ∧ text = part ++ rest := by
  have whole : text.dropWhile isGap = text := run_nil.dropWhile_append stops
  obtain ⟨rest, read, rfl⟩ := spaced_eq_ok_iff.mp taken
  rw [whole] at read
  obtain ⟨part, spells, shape⟩ := reads.sound read
  exact ⟨part, rest, spells, shape⟩

/-- An identifier with a meaning could also be the name of a time. -/
theorem zman_of_meaning {find : String → Option Value} {value : Value}
    (taken : spaced (meaning find) text = .ok (value, left)) :
    ∃ name, find name = some value ∧ spaced zman text = .ok (name, left) := by
  obtain ⟨rest, read, rfl⟩ := spaced_eq_ok_iff.mp taken
  have scanned := ofScan_eq_ok_iff.mp read
  split at scanned
  · rename_i name _ known
    obtain ⟨identifier, shape, stops⟩ := scanIdentifier_eq_some_iff.mp known
    obtain ⟨meant, means, same⟩ := Option.map_eq_some_iff.mp scanned
    obtain ⟨rfl, rfl⟩ := Prod.mk.inj same
    have named := zman_reads.complete ⟨identifier, List.mem_cons_self⟩ stops
    rw [← shape] at named
    exact ⟨name, means, spaced_eq_ok_iff.mpr ⟨_, named, rfl⟩⟩
  · simp at scanned

theorem zman_of_word {expected : String} {value : Unit}
    (taken : spaced (word expected) text = .ok (value, left)) :
    spaced zman text = .ok (expected, left) := by
  obtain ⟨name, known, named⟩ := zman_of_meaning taken
  by_cases same : name = expected
  · rwa [same] at named
  · simp [same] at known

theorem zman_of_standardDay {day : StandardDay}
    (taken : spaced standardDay text = .ok (.standard day, left)) :
    spaced zman text = .ok (day.token, left) := by
  obtain ⟨name, known, named⟩ := zman_of_meaning taken
  split at known
  · rename_i standard found
    obtain rfl : standard = day := Day.standard.inj (Option.some.inj known)
    rwa [← Vocabulary.token_of_find found] at named
  · simp at known

end Reader

end Zmanim
