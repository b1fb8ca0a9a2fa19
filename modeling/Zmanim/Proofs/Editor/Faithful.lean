import Zmanim.Proofs.Editor.RoundTrip
import Zmanim.Proofs.Formula.Recognition
/-! Inputs that the text of a snapshot keeps. -/

namespace Zmanim
open Text

namespace Formula

variable {again : Formula} {numeral : Numeral}

/-- An angle is kept as a number. -/
theorem exists_of_read_solar {degrees : Double} {direction : SolarDirection}
    (read : Formula.read (solar degrees direction).text = .ok again) :
    ∃ other, again = .solar other direction ∧ other.sameNumber degrees = true := by
  have unsigned := unsigned_of_read_text read degrees List.mem_cons_self
  have representable : (solar degrees direction).Representable :=
    representable_solar_iff.mpr unsigned
  obtain rfl := Except.ok.inj (read.symm.trans representable.read_text)
  exact ⟨degrees.normal, rfl, unsigned.sameNumber_normal⟩

/-- Hours of a standard day are kept as a number. -/
theorem exists_of_read_standard {hours : Double} {day : StandardDay}
    (read : Formula.read (proportional hours (.standard day)).text = .ok again) :
    ∃ other, again = .proportional other (.standard day) ∧ other.sameNumber hours = true := by
  have unsigned := unsigned_of_read_text read hours List.mem_cons_self
  have representable : (proportional hours (.standard day)).Representable :=
    representable_proportional_iff.mpr ⟨unsigned, by simp [Day.names], trivial⟩
  obtain rfl := Except.ok.inj (read.symm.trans representable.read_text)
  exact ⟨hours.normal, rfl, unsigned.sameNumber_normal⟩

/-- The tokens of a call up to the comma after its number. -/
theorem tokens_call_append {call : String} (shaped : NameShaped call)
    (wellFormed : numeral.WellFormed) (left : List Char) :
    tokens (call.toList ++ '(' :: (numeral.spelling ++ ',' :: left)) =
      .name call :: .opening .round :: .number numeral :: .comma :: tokens left := by
  have number : tokens (numeral.spelling ++ ',' :: left) =
      .number numeral :: .comma :: tokens left := by
    rw [tokens_append_mark rfl rfl (by decide)]
    exact congrArg (· ++ _) (@tokens_single (.number numeral) wellFormed)
  rw [tokens_call shaped, number]

/-- A call of proportional hours is recognized with the number after its bracket, and with the day
that the tokens after the comma tell. -/
theorem Recognized.exists_day {placed : List PlacedToken} {rest : List Token}
    (recognized : again.Recognized placed)
    (same : placed.map PlacedToken.token =
      .name "proportional_hours" :: .opening .round :: .number numeral :: .comma :: rest) :
    (∃ day : StandardDay, rest = [.name day.token, .closing .round] ∧
        again = .proportional (.ofDecimal numeral.value) (.standard day)) ∨
      ∃ start finish, rest = [.name "custom", .opening .round, .reference start, .comma,
          .reference finish, .closing .round, .closing .round] ∧
        again = .proportional (.ofDecimal numeral.value) (.custom (some start) (some finish)) := by
  cases recognized with
  | standard day kinds =>
      rw [kinds] at same
      obtain ⟨rfl, rfl⟩ : _ ∧ _ := by simpa using same
      exact .inl ⟨day, rfl, rfl⟩
  | custom _ _ kinds =>
      rw [kinds] at same
      obtain ⟨rfl, rfl⟩ : _ ∧ _ := by simpa using same
      exact .inr ⟨_, _, rfl, rfl⟩
  | solar _ kinds => simp [kinds] at same
  | offset _ _ mark => simp [mark] at same
  | fixedZman => simp at same

/-- What ends with a sign, a number and the unit of minutes is recognized as an offset. -/
theorem Recognized.exists_offset {placed : List PlacedToken} {front : List Token}
    {side : OffsetSide} {digits : List Char} (recognized : again.Recognized placed)
    (same : placed.map PlacedToken.token =
      front ++ [.sign side, .number ⟨digits, []⟩, .name "min"]) :
    ∃ name token, front = [token] ∧ token ∈ nameTokens name ∧ name ∉ keywords ∧
      again = .offset name side (UInt32.ofNat (Nat.ofDigitChars 10 digits 0)) := by
  have last := congrArg List.getLast? same
  cases recognized with
  | @offset base sign number unit name other count member free mark amount _ word _ =>
      have apart : front ++ [.sign side, .number ⟨digits, []⟩, .name "min"] =
          [base.token] ++ [.sign other, .number ⟨count, []⟩, .name "min"] := by
        simpa [mark, amount, word] using same.symm
      obtain ⟨rfl, ends⟩ := List.append_inj' apart rfl
      obtain ⟨rfl, rfl⟩ : _ ∧ _ := by simpa using ends
      exact ⟨name, base.token, rfl, member, free, rfl⟩
  | fixedZman => simpa using congrArg List.length same
  | solar _ kinds => simp [kinds] at last
  | standard _ kinds => simp [kinds] at last
  | custom _ _ kinds => simp [kinds] at last

/-- The tokens of a sign and the minutes after it. -/
theorem tokens_minutes {digits : List Char} (side : OffsetSide) (nonempty : digits ≠ [])
    (run : Run Char.isDigit digits) :
    tokens (' ' :: side.sign :: ' ' :: (digits ++ "min".toList)) =
      [.sign side, .number ⟨digits, []⟩, .name "min"] := by
  have unit : tokens "min".toList = [.name "min"] :=
    tokens_name (nameShaped_of_isIdentifier (by decide))
  have number : tokens (digits ++ "min".toList) = [.number ⟨digits, []⟩, .name "min"] := by
    have first := @tokens_spelling "min".toList (.number ⟨digits, []⟩) ⟨nonempty, run, run_nil⟩
      (stops_cons.mpr rfl)
    rw [unit] at first
    simpa [Token.spelling, Numeral.spelling] using first
  have amount : tokens (' ' :: (digits ++ "min".toList)) = [.number ⟨digits, []⟩, .name "min"] :=
    (tokens_space _).trans number
  have mark : tokens (side.sign :: ' ' :: (digits ++ "min".toList)) =
      [.sign side, .number ⟨digits, []⟩, .name "min"] := by
    rw [← amount]
    cases side <;> exact tokens_character rfl rfl (by decide)
  rw [tokens_space, mark]

/-- The tokens of the text of an offset are those of its base, and then the sign and the minutes. -/
theorem tokens_text_offset (base : String) (side : OffsetSide) (minutes : UInt32) :
    tokens (trim (offset base side minutes).text.toList) =
      tokens (base.toList.dropWhile isBlank) ++
        [.sign side, .number ⟨Nat.toDigits 10 minutes.toNat, []⟩, .name "min"] := by
  let digits := Nat.toDigits 10 minutes.toNat
  let rest := ' ' :: side.sign :: ' ' :: (digits ++ "min".toList)
  have shape : (offset base side minutes).text.toList = base.toList ++ rest := by
    simp [text_offset, rest, digits]
  have solid : isBlank 'n' = false := by decide
  have last : Stops isBlank (base.toList ++ rest).reverse := by simp [rest, solid]
  have minutes := tokens_minutes side Nat.toDigits_ne_nil (Decimal.run_toDigits minutes.toNat)
  rw [shape, trim_eq_dropWhile last, List.dropWhile_append, ← minutes]
  split
  · rename_i blank
    rw [List.isEmpty_iff.mp blank, tokens_nil, List.nil_append]
    cases side <;> exact (tokens_space _).symm
  · exact tokens_append (stops_cons.mpr rfl)

/-- The base of an offset is kept up to the blanks around it and an at sign before it. -/
theorem exists_of_read_offset {base : String} {side : OffsetSide} {minutes : UInt32}
    (read : Formula.read (offset base side minutes).text = .ok again) :
    ∃ name, again = .offset name side minutes ∧ trim base.toList ∈ nameSpellings name := by
  obtain ⟨name, token, single, member, free, kept⟩ :=
    (recognized_of_read read).exists_offset (tokens_text_offset base side minutes)
  rw [Nat.ofDigitChars_ten_toDigits, UInt32.ofNat_toNat] at kept
  have legible : token.Legible := legible_of_mem_tokens (single.symm ▸ List.mem_cons_self)
  obtain ⟨identifier, spells⟩ := spells_of_mem_nameTokens legible member free
  have solid := Solid.of_mem_nameSpellings identifier spells
  obtain ⟨before, after, front, back, shape⟩ := exists_of_tokens_eq_singleton single
  have whole : base.toList =
      (base.toList.takeWhile isBlank ++ before) ++ (token.spelling ++ after) := by
    rw [List.append_assoc, ← shape, List.takeWhile_append_dropWhile]
  refine ⟨name, kept, ?_⟩
  rw [whole, solid.trim_append (run_append.mpr ⟨run_takeWhile _, front.isBlank_of_isGap⟩)
    back.isBlank_of_isGap]
  exact spells

/-- The tokens of the text of proportional hours are those of the call around those of its day. -/
theorem exists_tokens_text_proportional {hours : Double} (unsigned : hours.Unsigned) (day : Day) :
    ∃ numeral : Numeral, hours.normal = .ofDecimal numeral.value ∧
      tokens (trim (proportional hours day).text.toList) =
        .name "proportional_hours" :: .opening .round :: .number numeral :: .comma ::
          (tokens day.text.toList ++ [.closing .round]) := by
  obtain ⟨numeral, wellFormed, spelled, normal⟩ := unsigned.exists_numeral
  have shape : (proportional hours day).text.toList = "proportional_hours".toList ++
      (('(' :: (numeral.spelling ++ ',' :: ' ' :: day.text.toList)) ++ [')']) := by
    simp [text_proportional, spelled]
  have call : isIdentifier "proportional_hours" = true := by decide
  have trimmed : Trimmed ("proportional_hours".toList ++
      (('(' :: (numeral.spelling ++ ',' :: ' ' :: day.text.toList)) ++ [')'])) :=
    (Solid.of_isIdentifier call).trimmed (.mark (by decide))
  have whole := tokens_call_append (nameShaped_of_isIdentifier call) wellFormed
    (' ' :: (day.text.toList ++ [')']))
  rw [tokens_space, tokens_append_closing] at whole
  refine ⟨numeral, normal, ?_⟩
  rw [shape, trimmed.trim_eq, ← whole]
  simp

end Formula

/-- The tokens of the text of a custom day are those of its references between marks. -/
theorem Day.tokens_text_custom (start finish : String) :
    tokens ("custom(@" ++ start ++ ", @" ++ finish ++ ")").toList =
      .name "custom" :: .opening .round ::
        (tokens ('@' :: start.toList) ++ .comma ::
          (tokens ('@' :: finish.toList) ++ [.closing .round])) := by
  have call : NameShaped "custom" := nameShaped_of_isIdentifier (by decide)
  have references : tokens (('@' :: start.toList) ++ ',' :: ' ' :: ('@' :: finish.toList ++ [')'])) =
      tokens ('@' :: start.toList) ++ .comma ::
        (tokens ('@' :: finish.toList) ++ [.closing .round]) := by
    rw [tokens_append_mark rfl rfl (by decide), tokens_space, tokens_append_closing]
    rfl
  rw [← references, ← tokens_call call]
  simp

/-- A custom day without both endpoints is written as its word. -/
theorem Day.text_custom_cases (first last : Option String) :
    (Day.custom first last).text = "custom" ∨
      ∃ start finish, first = some start ∧ last = some finish ∧
        (Day.custom first last).text = "custom(@" ++ start ++ ", @" ++ finish ++ ")" := by
  cases first with
  | none => exact .inl rfl
  | some start =>
      cases last with
      | none => exact .inl rfl
      | some finish =>
          simp only [Day.text]
          split
          · exact .inl rfl
          · exact .inr ⟨start, finish, rfl, rfl, rfl⟩

theorem tokens_reference_ne_nil (rest : List Char) : tokens ('@' :: rest) ≠ [] := by
  intro none
  have gap := run_of_placedTokensFrom_eq_nil (List.map_eq_nil_iff.mp none)
  exact absurd (run_cons.mp gap).1 (by decide)

/-- A reference is kept up to the blanks behind it. -/
theorem trim_of_tokens_reference {name word : String}
    (single : tokens ('@' :: name.toList) = [.reference word]) :
    String.ofList (trim name.toList) = word := by
  have legible : (Token.reference word).Legible :=
    legible_of_mem_tokens (single.symm ▸ List.mem_cons_self)
  obtain ⟨before, after, front, back, shape⟩ := exists_of_tokens_eq_singleton single
  cases before with
  | cons first rest =>
      obtain rfl := (List.cons.inj shape).1
      exact absurd (run_cons.mp front).1 (by decide)
  | nil =>
      have whole : name.toList = [] ++ (word.toList ++ after) := (List.cons.inj shape).2
      rw [whole, (Solid.of_nameShaped legible).trim_append run_nil back.isBlank_of_isGap,
        String.ofList_toList]

namespace Formula

/-- Two references around a comma can be told apart, whatever their names are. -/
theorem references_of_tokens {start finish first second : String}
    (same : tokens ('@' :: start.toList) ++ .comma :: tokens ('@' :: finish.toList) =
      [.reference first, .comma, .reference second]) :
    tokens ('@' :: start.toList) = [.reference first] ∧
      tokens ('@' :: finish.toList) = [.reference second] := by
  have some := tokens_reference_ne_nil start.toList
  have others := tokens_reference_ne_nil finish.toList
  generalize tokens ('@' :: start.toList) = front at same some
  generalize tokens ('@' :: finish.toList) = back at same others
  rcases front with _ | ⟨token, _ | ⟨next, front⟩⟩
  · exact absurd rfl some
  · simpa using same
  · have count := congrArg List.length same
    have last := List.length_pos_iff.mpr others
    simp only [List.length_append, List.length_cons, List.length_nil] at count
    omega

/-- A custom day is kept as one, with both endpoints up to the blanks behind them. -/
theorem exists_of_read_custom {hours : Double} {first last : Option String}
    (read : Formula.read (proportional hours (.custom first last)).text = .ok again) :
    ∃ other start finish, first = some start ∧ last = some finish ∧
      other.sameNumber hours = true ∧
      again = .proportional other (.custom (some (String.ofList (trim start.toList)))
        (some (String.ofList (trim finish.toList)))) := by
  have unsigned := unsigned_of_read_text read hours List.mem_cons_self
  obtain ⟨numeral, normal, kinds⟩ := exists_tokens_text_proportional unsigned (.custom first last)
  have days := (recognized_of_read read).exists_day kinds
  rcases Day.text_custom_cases first last with missing | ⟨start, finish, rfl, rfl, written⟩
  · have word : tokens "custom".toList = [.name "custom"] :=
      tokens_name (nameShaped_of_isIdentifier (by decide))
    rw [missing, word] at days
    rcases days with ⟨day, same, -⟩ | ⟨_, _, same, -⟩
    · cases day <;> exact absurd same (by decide)
    · simp at same
  · rw [written, Day.tokens_text_custom] at days
    rcases days with ⟨day, same, -⟩ | ⟨begin, stop, same, kept⟩
    · simp at same
    · have apart : (tokens ('@' :: start.toList) ++ .comma :: tokens ('@' :: finish.toList)) ++
          [.closing .round, .closing .round] =
          [.reference begin, .comma, .reference stop] ++ [.closing .round, .closing .round] := by
        simpa using same
      obtain ⟨left, right⟩ := references_of_tokens (List.append_cancel_right apart)
      rw [← normal] at kept
      refine ⟨hours.normal, start, finish, rfl, rfl, unsigned.sameNumber_normal, ?_⟩
      rw [kept, trim_of_tokens_reference left, trim_of_tokens_reference right]

end Formula

namespace Editor

/-- Another editor keeps the chosen method and its inputs: numbers up to the sign of a zero, and
names up to the blanks around them. The base of an offset may also lose an at sign. -/
structure Kept (editor again : Editor) : Prop where
  method : again.method = editor.method
  inputs : match editor.method with
    | some .solar =>
        again.solarDegrees.sameNumber editor.solarDegrees = true ∧
          again.solarDirection = editor.solarDirection
    | some .fixedOffset =>
        again.offsetSide = editor.offsetSide ∧ again.offsetMinutes = editor.offsetMinutes ∧
          trim editor.offsetBase.toList ∈ nameSpellings again.offsetBase
    | some .proportional =>
        again.hours.sameNumber editor.hours = true ∧ again.day = editor.day ∧
          (editor.day = .custom → ∃ start finish,
            editor.customStart = some start ∧ editor.customEnd = some finish ∧
            again.customStart = some (String.ofList (trim start.toList)) ∧
            again.customEnd = some (String.ofList (trim finish.toList)))
    | _ => True

/-- The editor of the formula that is read from the text of a chosen method keeps its inputs. -/
theorem kept_ofFormula {editor : Editor} {formula : Formula}
    (chosen : editor.method ∈ [some .solar, some .fixedOffset, some .proportional])
    (taken : Formula.read editor.formula.text = .ok formula) : editor.Kept (ofFormula formula) := by
  rw [Editor.formula] at taken
  simp only [List.mem_cons, List.not_mem_nil, or_false] at chosen
  rcases chosen with solar | offset | proportional
  · rw [solar] at taken
    obtain ⟨other, rfl, same⟩ := Formula.exists_of_read_solar taken
    refine ⟨solar.symm, ?_⟩
    rw [solar]
    exact ⟨same, rfl⟩
  · rw [offset] at taken
    obtain ⟨name, rfl, spells⟩ := Formula.exists_of_read_offset taken
    refine ⟨offset.symm, ?_⟩
    rw [offset]
    exact ⟨rfl, rfl, spells⟩
  · rw [proportional] at taken
    cases day : editor.day with
    | standard kind =>
        rw [Editor.proportionalDay, day] at taken
        obtain ⟨other, rfl, same⟩ := Formula.exists_of_read_standard taken
        refine ⟨proportional.symm, ?_⟩
        rw [proportional]
        exact ⟨same, day.symm, fun custom => by simp [day] at custom⟩
    | custom =>
        rw [Editor.proportionalDay, day] at taken
        obtain ⟨other, start, finish, first, last, same, rfl⟩ := Formula.exists_of_read_custom taken
        refine ⟨proportional.symm, ?_⟩
        rw [proportional]
        exact ⟨same, day.symm, fun _ => ⟨start, finish, first, last, rfl, rfl⟩⟩

end Editor

namespace Snapshot

/-- A snapshot is never read as another one: when a method other than a named time is chosen and the
text is read at all, the method and its inputs are kept. -/
theorem kept_of_read_text {snapshot again : Snapshot}
    (chosen : snapshot.editor.method ∈ [some .solar, some .fixedOffset, some .proportional])
    (read : Snapshot.read snapshot.text = .ok again) : snapshot.editor.Kept again.editor := by
  obtain ⟨formula, taken, rfl⟩ := read_eq_ok_iff.mp read
  exact Editor.kept_ofFormula chosen taken

/-- An invalid base with blanks and an at sign is read as the name inside it. -/
theorem kept_of_blankBase :
    (ofFormula (.offset " @dawn " .after 5)).isValid = false ∧
      (ofFormula (.offset " @dawn " .after 5)).editor.Kept
        (ofFormula (.offset "dawn" .after 5)).editor :=
  ⟨by decide, kept_of_read_text (by decide) rfl⟩

end Snapshot

end Zmanim
