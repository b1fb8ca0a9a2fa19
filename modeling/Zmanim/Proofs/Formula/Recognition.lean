import Zmanim.Proofs.Formula.Reading
import Zmanim.Proofs.Token.Sequence
/-! Formulas in the tokens of a text. -/

namespace Zmanim
open Text

variable {text : List Char} {formula : Formula}

/-- A name stands by itself or as a reference. -/
def nameTokens (name : String) : List Token := [.name name, .reference name]

theorem eq_of_mem_nameTokens {token : Token} {name other : String} (member : token ∈ nameTokens name)
    (again : token ∈ nameTokens other) : name = other := by
  simp only [nameTokens, List.mem_cons, List.not_mem_nil, or_false] at member again
  rcases member with rfl | rfl <;> simpa using again

theorem SolarDirection.eq_of_token (direction : SolarDirection) {other : SolarDirection}
    (same : direction.token = other.token) : direction = other := by
  cases direction <;> cases other <;> first | rfl | exact absurd same (by decide)

theorem StandardDay.eq_of_token (day : StandardDay) {other : StandardDay}
    (same : day.token = other.token) : day = other := by
  cases day <;> cases other <;> first | rfl | exact absurd same (by decide)

/-- The formula that placed tokens make up. The unit of minutes starts where their number stops. -/
inductive Formula.Recognized : Formula → List PlacedToken → Prop where
  | solar {placed : List PlacedToken} {numeral : Numeral} (direction : SolarDirection) :
      placed.map PlacedToken.token =
        [.name "solar", .opening .round, .number numeral, .comma, .name direction.token,
          .closing .round] →
      Recognized (.solar (.ofDecimal numeral.value) direction) placed
  | standard {placed : List PlacedToken} {numeral : Numeral} (day : StandardDay) :
      placed.map PlacedToken.token =
        [.name "proportional_hours", .opening .round, .number numeral, .comma, .name day.token,
          .closing .round] →
      Recognized (.proportional (.ofDecimal numeral.value) (.standard day)) placed
  | custom {placed : List PlacedToken} {numeral : Numeral} {start finish : String} :
      start ∉ keywords → finish ∉ keywords →
      placed.map PlacedToken.token =
        [.name "proportional_hours", .opening .round, .number numeral, .comma, .name "custom",
          .opening .round, .reference start, .comma, .reference finish, .closing .round,
          .closing .round] →
      Recognized (.proportional (.ofDecimal numeral.value) (.custom (some start) (some finish)))
        placed
  | offset {base sign number unit : PlacedToken} {name : String} {side : OffsetSide}
      {digits : List Char} :
      base.token ∈ nameTokens name → name ∉ keywords → sign.token = .sign side →
      number.token = .number ⟨digits, []⟩ → Nat.ofDigitChars 10 digits 0 < UInt32.size →
      unit.token = .name "min" → unit.span.start = number.span.stop →
      Recognized (.offset name side (UInt32.ofNat (Nat.ofDigitChars 10 digits 0)))
        [base, sign, number, unit]
  | fixedZman {placed : PlacedToken} {name : String} :
      placed.token ∈ nameTokens name → name ∉ keywords → Recognized (.fixedZman name) [placed]

/-- A spelling of a name is the spelling of a token of the name. -/
theorem exists_of_mem_nameSpellings {name : String} {spelling : List Char}
    (identifier : isIdentifier name = true) (spells : spelling ∈ nameSpellings name) :
    ∃ token ∈ nameTokens name, token.Legible ∧ token.spelling = spelling := by
  have shaped := nameShaped_of_isIdentifier identifier
  simp only [nameSpellings, List.mem_cons, List.not_mem_nil, or_false] at spells
  rcases spells with rfl | rfl
  · exact ⟨.name name, by simp [nameTokens], shaped, rfl⟩
  · exact ⟨.reference name, by simp [nameTokens], shaped, rfl⟩

section Call

variable {call word start finish : String} {numeral : Numeral}

/-- The tokens of a call with a number and a word. -/
theorem tokens_of_call (callShaped : NameShaped call) (wellFormed : numeral.WellFormed)
    (wordShaped : NameShaped word)
    (laid : Laid [call.toList, ['('], numeral.spelling, [','], word.toList, [')']] text) :
    tokens text =
      [.name call, .opening .round, .number numeral, .comma, .name word, .closing .round] := by
  refine tokens_of_laid laid ?_ ?_
  · simp [Token.Legible, callShaped, wellFormed, wordShaped]
  · simp only [List.isChain_cons_cons, List.isChain_singleton, Token.Apart]
    exact ⟨stops_cons.mpr rfl, fun _ _ => rfl, stops_cons.mpr rfl, fun _ _ => rfl,
      stops_cons.mpr rfl, trivial⟩

/-- The tokens of a call with a number and another call of two references. -/
theorem tokens_of_nestedCall (callShaped : NameShaped call) (wellFormed : numeral.WellFormed)
    (wordShaped : NameShaped word) (startShaped : NameShaped start)
    (finishShaped : NameShaped finish)
    (laid : Laid [call.toList, ['('], numeral.spelling, [','], word.toList, ['('],
      '@' :: start.toList, [','], '@' :: finish.toList, [')'], [')']] text) :
    tokens text =
      [.name call, .opening .round, .number numeral, .comma, .name word, .opening .round,
        .reference start, .comma, .reference finish, .closing .round, .closing .round] := by
  refine tokens_of_laid laid ?_ ?_
  · simp [Token.Legible, callShaped, wellFormed, wordShaped, startShaped, finishShaped]
  · simp only [List.isChain_cons_cons, List.isChain_singleton, Token.Apart]
    exact ⟨stops_cons.mpr rfl, fun _ _ => rfl, stops_cons.mpr rfl, fun _ _ => rfl,
      stops_cons.mpr rfl, fun _ _ => rfl, stops_cons.mpr rfl, fun _ _ => rfl, stops_cons.mpr rfl,
      fun _ _ => rfl, trivial⟩

end Call

namespace Formula

/-- The tokens of a written offset, where the unit of minutes starts at the end of their number. -/
theorem recognized_of_laid_offset {base : String} {spelling digits : List Char} (side : OffsetSide)
    (identifier : isIdentifier base = true) (spells : spelling ∈ nameSpellings base)
    (nonempty : digits ≠ []) (run : Run Char.isDigit digits)
    (fits : Nat.ofDigitChars 10 digits 0 < UInt32.size)
    (laid : Laid [spelling, [side.sign], digits ++ "min".toList] text) :
    (offset base side (UInt32.ofNat (Nat.ofDigitChars 10 digits 0))).Recognized
      (placedTokens text) := by
  obtain ⟨before, _, blank, signed, rfl⟩ := laid.exists_next
  obtain ⟨after, _, same, final, rfl⟩ := signed.exists_next
  obtain rfl := final.eq_last
  obtain ⟨name, member, legible, rfl⟩ := exists_of_mem_nameSpellings identifier spells
  have shape : name.spelling ++ (before ++ ([side.sign] ++ (after ++ (digits ++ "min".toList)))) =
      name.spelling ++ (before ++ ((Token.sign side).spelling ++
        (after ++ ((Token.number ⟨digits, []⟩).spelling ++ ((Token.name "min").spelling ++ []))))) := by
    simp [Token.spelling, Numeral.spelling]
  have mark : (Token.sign side).Legible := trivial
  have minutes : (Token.number ⟨digits, []⟩).Legible := ⟨nonempty, run, run_nil⟩
  have unit : (Token.name "min").Legible := nameShaped_of_isIdentifier (by decide)
  have ends (left : List Char) : Stops name.goesOn ((Token.sign side).spelling ++ left) :=
    Token.stops_goesOn (by cases side <;> exact stops_cons.mpr rfl)
  have amount : Stops (Token.number ⟨digits, []⟩).goesOn ((Token.name "min").spelling ++ []) :=
    stops_cons.mpr rfl
  rw [shape, placedTokens,
    placedTokensFrom_spelling _ legible ((ends _).behind_gap blank fun _ =>
      Token.goesOn_eq_false_of_isGap),
    placedTokensFrom_run _ blank, placedTokensFrom_spelling _ mark fun _ _ => rfl,
    placedTokensFrom_run _ same, placedTokensFrom_spelling _ minutes amount,
    placedTokensFrom_spelling _ unit stops_nil, placedTokensFrom_nil]
  exact .offset member (isIdentifier_iff_nameShaped.mp identifier).2 rfl rfl fits rfl rfl

/-- A written formula is recognized in the tokens of its text. -/
theorem Written.recognized (written : formula.Written text) :
    formula.Recognized (placedTokens text) := by
  obtain ⟨parts, spelled, laid⟩ := written
  cases spelled with
  | solar direction wellFormed =>
      exact .solar direction (tokens_of_call (nameShaped_of_isIdentifier (by decide)) wellFormed
        (nameShaped_of_isIdentifier direction.isIdentifier_token) laid)
  | proportional wellFormed day =>
      have call : NameShaped "proportional_hours" := nameShaped_of_isIdentifier (by decide)
      cases day with
      | standard day =>
          exact .standard day (tokens_of_call call wellFormed
            (nameShaped_of_isIdentifier day.isIdentifier_token) laid)
      | custom start finish =>
          obtain ⟨startShaped, startFree⟩ := isIdentifier_iff_nameShaped.mp start
          obtain ⟨finishShaped, finishFree⟩ := isIdentifier_iff_nameShaped.mp finish
          exact .custom startFree finishFree (tokens_of_nestedCall call wellFormed
            (nameShaped_of_isIdentifier (by decide)) startShaped finishShaped laid)
  | offset side identifier spells nonempty run fits =>
      exact recognized_of_laid_offset side identifier spells nonempty run fits laid
  | fixedZman identifier spells =>
      obtain ⟨name, member, legible, rfl⟩ := exists_of_mem_nameSpellings identifier spells
      have single := placedTokensFrom_spelling .start legible stops_nil
      rw [List.append_nil, placedTokensFrom_nil] at single
      rw [laid.eq_last, placedTokens, single]
      exact .fixedZman member (isIdentifier_iff_nameShaped.mp identifier).2

/-- A token of a name that is no keyword spells an identifier. -/
theorem spells_of_mem_nameTokens {name : String} {token : Token} (legible : token.Legible)
    (member : token ∈ nameTokens name) (free : name ∉ keywords) :
    isIdentifier name = true ∧ token.spelling ∈ nameSpellings name := by
  simp only [nameTokens, List.mem_cons, List.not_mem_nil, or_false] at member
  rcases member with rfl | rfl
  · exact ⟨isIdentifier_iff_nameShaped.mpr ⟨legible, free⟩, by simp [nameSpellings, Token.spelling]⟩
  · exact ⟨isIdentifier_iff_nameShaped.mpr ⟨legible, free⟩, by simp [nameSpellings, Token.spelling]⟩

/-- An offset whose unit of minutes stands right after their number is written. -/
theorem written_offset_of_placed {base sign number unit : PlacedToken} {name : String}
    {side : OffsetSide} {digits : List Char}
    (found : placedTokens text = [base, sign, number, unit]) (trimmed : Trimmed text)
    (member : base.token ∈ nameTokens name) (free : name ∉ keywords)
    (mark : sign.token = .sign side) (amount : number.token = .number ⟨digits, []⟩)
    (fits : Nat.ofDigitChars 10 digits 0 < UInt32.size) (word : unit.token = .name "min")
    (adjacent : unit.span.start = number.span.stop) :
    (offset name side (UInt32.ofNat (Nat.ofDigitChars 10 digits 0))).Written text := by
  obtain ⟨before, _, blank, rfl, legible, -, follows⟩ := exists_of_placedTokensFrom_eq_cons found
  obtain ⟨between, rest, same, rfl, -, -, last⟩ := exists_of_placedTokensFrom_eq_cons follows
  obtain ⟨identifier, spells⟩ := spells_of_mem_nameTokens legible member free
  have minutes : number.token.Legible :=
    legible_of_mem_placedTokensFrom (last.symm ▸ List.mem_cons_self)
  rw [amount] at minutes
  obtain ⟨nonempty, run, -⟩ := minutes
  have parts := Parts.offset side identifier spells nonempty run fits
  have first : Solid base.token.spelling := .of_mem_nameSpellings identifier spells
  have second : Solid sign.token.spelling := by
    rw [mark]
    cases side <;> exact .mark (by decide)
  have joined : number.token.spelling ++ unit.token.spelling = digits ++ "min".toList := by
    rw [amount, word]
    simp [Token.spelling, Numeral.spelling]
  have third : Solid (number.token.spelling ++ unit.token.spelling) :=
    joined ▸ (Solid.of_digits nonempty run).append (.of_isIdentifier (by decide))
  have spread := Spread.next before _ blank first
    (.next between _ same second (spread_of_adjacent last adjacent third))
  rw [joined, mark] at spread
  rw [mark] at trimmed ⊢
  exact ⟨_, parts, spread.laid (by simp) trimmed⟩

/-- A recognized formula is written when its text has no blank at either end. -/
theorem Recognized.written (recognized : formula.Recognized (placedTokens text))
    (trimmed : Trimmed text) : formula.Written text := by
  generalize found : placedTokens text = placed at recognized
  have kinds : tokens text = placed.map PlacedToken.token := congrArg _ found
  have legible : ∀ token ∈ placed.map PlacedToken.token, token.Legible :=
    fun token member => legible_of_mem_tokens (kinds ▸ member)
  cases recognized with
  | solar direction same =>
      rw [same] at kinds legible
      simp only [List.forall_mem_cons] at legible
      obtain ⟨-, -, wellFormed, -⟩ := legible
      exact ⟨_, .solar direction wellFormed, laid_of_tokens kinds (by simp) (by simp) trimmed⟩
  | standard day same =>
      rw [same] at kinds legible
      simp only [List.forall_mem_cons] at legible
      obtain ⟨-, -, wellFormed, -⟩ := legible
      exact ⟨_, .proportional wellFormed (.standard day),
        laid_of_tokens kinds (by simp) (by simp) trimmed⟩
  | custom startFree finishFree same =>
      rw [same] at kinds legible
      simp only [List.forall_mem_cons] at legible
      obtain ⟨-, -, wellFormed, -, -, -, start, -, finish, -⟩ := legible
      exact ⟨_, .proportional wellFormed
        (.custom (isIdentifier_iff_nameShaped.mpr ⟨start, startFree⟩)
          (isIdentifier_iff_nameShaped.mpr ⟨finish, finishFree⟩)),
        laid_of_tokens kinds (by simp) (by simp) trimmed⟩
  | offset member free mark amount fits word adjacent =>
      exact written_offset_of_placed found trimmed member free mark amount fits word adjacent
  | @fixedZman placed name member free =>
      have single := legible placed.token (by simp)
      obtain ⟨identifier, spells⟩ := spells_of_mem_nameTokens single member free
      have plain : ∀ character, .other character ∉ [placed.token] := by
        simp only [nameTokens, List.mem_cons, List.not_mem_nil, or_false] at member
        rcases member with same | same <;> simp [same]
      exact ⟨_, .fixedZman identifier spells, laid_of_tokens kinds plain (by simp) trimmed⟩

theorem recognized_of_read {source : String} (read : Formula.read source = .ok formula) :
    formula.Recognized (placedTokens (trim source.toList)) :=
  ((ofTrimmed?_eq_some_iff_written (trimmed_trim _)).mp (read_eq_ok_iff.mp read)).recognized

theorem Recognized.read_eq {source : String}
    (recognized : formula.Recognized (placedTokens (trim source.toList))) :
    Formula.read source = .ok formula := by
  have trimmed := trimmed_trim source.toList
  rw [read_eq_ok_iff, ofTrimmed?_eq_some_iff_written trimmed]
  exact recognized.written trimmed

/-- The tokens alone tell the formula, wherever they are placed. -/
theorem Recognized.unique {first second : Formula} {placed others : List PlacedToken}
    (left : first.Recognized placed) (right : second.Recognized others)
    (same : placed.map PlacedToken.token = others.map PlacedToken.token) : first = second := by
  cases left with
  | solar direction kinds =>
      cases right with
      | solar other spelled =>
          rw [kinds, spelled] at same
          obtain ⟨rfl, word⟩ : _ ∧ direction.token = other.token := by simpa using same
          rw [direction.eq_of_token word]
      | _ => simp_all
  | standard day kinds =>
      cases right with
      | standard other spelled =>
          rw [kinds, spelled] at same
          obtain ⟨rfl, word⟩ : _ ∧ day.token = other.token := by simpa using same
          rw [day.eq_of_token word]
      | _ => simp_all
  | custom startFree finishFree kinds =>
      cases right with
      | custom _ _ spelled =>
          rw [kinds, spelled] at same
          obtain ⟨rfl, rfl, rfl⟩ : _ ∧ _ ∧ _ := by simpa using same
          rfl
      | _ => simp_all
  | offset member free mark amount fits word adjacent =>
      cases right with
      | offset other _ sign number _ unit _ =>
          simp only [List.map_cons, mark, amount, word, sign, number, unit] at same
          obtain ⟨base, rfl, rfl⟩ : _ ∧ _ ∧ _ := by simpa using same
          rw [eq_of_mem_nameTokens member (base ▸ other)]
      | _ => simp_all
  | fixedZman member free =>
      cases right with
      | fixedZman other _ =>
          have base := (List.cons.inj same).1
          rw [eq_of_mem_nameTokens member (base ▸ other)]
      | _ => simp_all

/-- A text is read as a formula exactly when the formula is recognized in the tokens of its trimmed
form, and texts with the same tokens are read as the same formula. -/
theorem read_eq_ok_iff_recognized (source : String) :
    (∀ formula, Formula.read source = .ok formula ↔
      formula.Recognized (placedTokens (trim source.toList))) ∧
    ∀ other first second, Formula.read source = .ok first → Formula.read other = .ok second →
      tokens (trim source.toList) = tokens (trim other.toList) → first = second := by
  refine ⟨fun formula => ⟨recognized_of_read, Recognized.read_eq⟩, ?_⟩
  intro other first second read again same
  exact (recognized_of_read read).unique (recognized_of_read again) same

/-- Gaps between the tokens do not matter. -/
theorem read_of_gaps :
    (offset "dawn" .before 7).Recognized (placedTokens (trim "\tdawn - 7min".toList)) ∧
      ∃ first second, Formula.read "\tdawn - 7min" = .ok first ∧
        Formula.read "dawn-7min" = .ok second ∧ first = second := by
  have spaced : Formula.read "\tdawn - 7min" = .ok (.offset "dawn" .before 7) := rfl
  have glued : Formula.read "dawn-7min" = .ok (.offset "dawn" .before 7) := rfl
  have same : tokens (trim "\tdawn - 7min".toList) = tokens (trim "dawn-7min".toList) := by
    decide +kernel
  exact ⟨((read_eq_ok_iff_recognized _).1 _).mp spaced, _, _, spaced, glued,
    (read_eq_ok_iff_recognized _).2 _ _ _ spaced glued same⟩

end Formula

end Zmanim
