import Zmanim.Formula.Form
import Zmanim.Proofs.Formula.Reader
/-! What the forms read. -/

namespace Zmanim
open Text

namespace Form
open Reader

variable {text left : List Char} {parts others : List (List Char)} {formula : Formula} {day : Day}

theorem spread_of_customDay (read : customDay text = .ok (day, left)) :
    ∃ parts, day.Parts parts ∧ Spread parts text left := by
  simp only [customDay, opening, separator, closing, bind_eq_ok_iff, expecting_eq_ok_iff,
    pure_apply, Except.ok.injEq, Prod.mk.injEq] at read
  obtain ⟨_, _, word, _, _, opens, start, _, first, _, _, comma, finish, _, second, _, _, closes,
    rfl, rfl⟩ := read
  obtain ⟨_, rfl, word⟩ := (word_reads (by decide)).spread word
  obtain ⟨_, rfl, opens⟩ := (character_reads (by decide)).spread opens
  obtain ⟨_, ⟨startIdentifier, rfl⟩, first⟩ := reference_reads.spread first
  obtain ⟨_, rfl, comma⟩ := (character_reads (by decide)).spread comma
  obtain ⟨_, ⟨finishIdentifier, rfl⟩, second⟩ := reference_reads.spread second
  obtain ⟨_, rfl, closes⟩ := (character_reads (by decide)).spread closes
  exact ⟨_, .custom startIdentifier finishIdentifier,
    word.append (opens.append (first.append (comma.append (second.append closes))))⟩

theorem spread_of_solarReader (read : solarReader text = .ok (formula, left)) :
    ∃ parts, formula.Parts parts ∧ Spread parts text left := by
  simp only [solarReader, opening, separator, closing, bind_eq_ok_iff, expecting_eq_ok_iff,
    pure_apply, Except.ok.injEq, Prod.mk.injEq] at read
  obtain ⟨_, _, word, _, _, opens, degrees, _, angle, _, _, comma, direction, _, event, _, _,
    closes, rfl, rfl⟩ := read
  obtain ⟨_, rfl, word⟩ := (word_reads (by decide)).spread word
  obtain ⟨_, rfl, opens⟩ := (character_reads (by decide)).spread opens
  obtain ⟨_, ⟨numeral, wellFormed, rfl, rfl⟩, angle⟩ := number_reads.spread angle
  obtain ⟨_, rfl, comma⟩ := (character_reads (by decide)).spread comma
  obtain ⟨_, rfl, event⟩ := direction_reads.spread event
  obtain ⟨_, rfl, closes⟩ := (character_reads (by decide)).spread closes
  exact ⟨_, .solar direction wellFormed,
    word.append (opens.append (angle.append (comma.append (event.append closes))))⟩

theorem spread_of_day (read : either customDay (spaced standardDay) text = .ok (day, left)) :
    ∃ parts, day.Parts parts ∧ Spread parts text left := by
  rcases either_eq_ok_iff.mp read with custom | ⟨-, plain⟩
  · exact spread_of_customDay custom
  · obtain ⟨_, ⟨standard, rfl, rfl⟩, spread⟩ := standardDay_reads.spread plain
    exact ⟨_, .standard standard, spread⟩

theorem spread_of_proportionalReader (read : proportionalReader text = .ok (formula, left)) :
    ∃ parts, formula.Parts parts ∧ Spread parts text left := by
  simp only [proportionalReader, opening, separator, closing, bind_eq_ok_iff, expecting_eq_ok_iff,
    pure_apply, Except.ok.injEq, Prod.mk.injEq] at read
  obtain ⟨_, _, word, _, _, opens, hours, _, count, _, _, comma, day, _, base, _, _, closes, rfl,
    rfl⟩ := read
  obtain ⟨_, rfl, word⟩ := (word_reads (by decide)).spread word
  obtain ⟨_, rfl, opens⟩ := (character_reads (by decide)).spread opens
  obtain ⟨_, ⟨numeral, wellFormed, rfl, rfl⟩, count⟩ := number_reads.spread count
  obtain ⟨_, rfl, comma⟩ := (character_reads (by decide)).spread comma
  obtain ⟨dayParts, written, base⟩ := spread_of_day base
  obtain ⟨_, rfl, closes⟩ := (character_reads (by decide)).spread closes
  have front := word.append (opens.append (count.append comma))
  exact ⟨_, .proportional wellFormed written, (front.append base).append closes⟩

theorem spread_of_offsetReader (read : offsetReader text = .ok (formula, left)) :
    ∃ parts, formula.Parts parts ∧ Spread parts text left := by
  simp only [offsetReader, bind_eq_ok_iff, expecting_eq_ok_iff, pure_apply, Except.ok.injEq,
    Prod.mk.injEq] at read
  obtain ⟨base, _, name, side, _, sign, _, _, amount, _, rest, unit, rfl, rfl⟩ := read
  obtain ⟨_, ⟨identifier, spells⟩, name⟩ := zman_reads.spread name
  obtain ⟨_, rfl, sign⟩ := sign_reads.spread sign
  obtain ⟨digits, ⟨nonempty, run, fits, rfl⟩, rfl⟩ := minutes_reads.sound amount
  obtain rfl := literal_eq_ok_iff.mp unit
  have solid : Solid (digits ++ "min".toList) :=
    (Solid.of_digits nonempty run).append (.of_isIdentifier (by decide))
  have last := Spread.next [] (digits ++ "min".toList) run_nil solid (.done [] rest run_nil)
  refine ⟨_, .offset side identifier spells nonempty run fits, name.append (sign.append ?_)⟩
  simpa using last

theorem spread_of_fixedZmanReader (read : fixedZmanReader text = .ok (formula, left)) :
    ∃ parts, formula.Parts parts ∧ Spread parts text left := by
  simp only [fixedZmanReader, bind_eq_ok_iff, pure_apply, Except.ok.injEq, Prod.mk.injEq] at read
  obtain ⟨name, _, taken, rfl, rfl⟩ := read
  obtain ⟨_, ⟨identifier, spells⟩, spread⟩ := zman_reads.spread taken
  exact ⟨_, .fixedZman identifier spells, spread⟩

/-- A form reads only texts over which the parts of its formula are spread. -/
theorem spread_of_reader {form : Form} (read : form.reader text = .ok (formula, left)) :
    ∃ parts, formula.Parts parts ∧ Spread parts text left := by
  cases form with
  | solar => exact spread_of_solarReader read
  | proportional => exact spread_of_proportionalReader read
  | offset => exact spread_of_offsetReader read
  | fixedZman => exact spread_of_fixedZmanReader read

/-- The parts of a custom day are read, whatever is spread behind them. -/
theorem customDay_of_spread {start finish : String} (startIdentifier : isIdentifier start = true)
    (finishIdentifier : isIdentifier finish = true) (stops : Stops isGap left)
    (spread : Spread (["custom".toList, ['('], '@' :: start.toList, [','], '@' :: finish.toList,
      [')']] ++ others) text left) :
    ∃ middle, customDay text = .ok (.custom (some start) (some finish), middle) ∧
      Spread others middle left ∧ Stops isGap middle := by
  obtain ⟨_, word, spread, -⟩ :=
    (word_reads (by decide)).spaced_of_spread rfl spread stops (stops_cons.mpr rfl)
  obtain ⟨_, opens, spread, -⟩ :=
    (character_reads (by decide)).spaced_of_spread rfl spread stops fun _ _ => rfl
  obtain ⟨_, first, spread, -⟩ :=
    reference_reads.spaced_of_spread ⟨startIdentifier, rfl⟩ spread stops (stops_cons.mpr rfl)
  obtain ⟨_, comma, spread, -⟩ :=
    (character_reads (by decide)).spaced_of_spread rfl spread stops fun _ _ => rfl
  obtain ⟨_, second, spread, -⟩ :=
    reference_reads.spaced_of_spread ⟨finishIdentifier, rfl⟩ spread stops (stops_cons.mpr rfl)
  obtain ⟨middle, closes, spread, behind⟩ :=
    (character_reads (by decide)).spaced_of_spread rfl spread stops fun _ _ => rfl
  refine ⟨middle, ?_, spread, behind⟩
  simp only [customDay, opening, separator, closing, bind_eq_ok_iff, expecting_eq_ok_iff]
  exact ⟨(), _, word, (), _, opens, start, _, first, (), _, comma, finish, _, second, (), _, closes,
    rfl⟩

/-- The word for a custom day is no standard day. -/
theorem custom_ne_standardDay {standard : StandardDay} {value : Unit} {rest : List Char}
    (word : spaced (Reader.word "custom") text = .ok (value, rest)) :
    spaced standardDay text ≠ .ok (.standard standard, left) := by
  intro taken
  have same := (zman_of_word word).symm.trans (zman_of_standardDay taken)
  have token : "custom" = standard.token := (Prod.mk.inj (Except.ok.inj same)).1
  cases standard <;> exact absurd token (by decide)

/-- A custom day does not begin with the word for a standard day. -/
theorem customDay_of_standardDay {standard : StandardDay}
    (taken : spaced standardDay text = .ok (.standard standard, left)) :
    ∃ notes, customDay text = .error notes := by
  cases read : customDay text with
  | error notes => exact ⟨notes, rfl⟩
  | ok result =>
      obtain ⟨_, _, word, -⟩ := bind_eq_ok_iff.mp read
      exact absurd taken (custom_ne_standardDay word)

theorem day_of_spread (written : day.Parts parts) (stops : Stops isGap left)
    (spread : Spread (parts ++ others) text left)
    (ends : Stops isNamePart (others.flatten ++ left)) :
    ∃ middle, either customDay (spaced standardDay) text = .ok (day, middle) ∧
      Spread others middle left ∧ Stops isGap middle := by
  cases written with
  | standard day =>
      obtain ⟨middle, taken, spread, behind⟩ :=
        standardDay_reads.spaced_of_spread ⟨day, rfl, rfl⟩ spread stops ends
      refine ⟨middle, either_eq_ok_iff.mpr (.inr ?_), spread, behind⟩
      exact ⟨customDay_of_standardDay taken, taken⟩
  | custom start finish =>
      obtain ⟨middle, taken, spread, behind⟩ := customDay_of_spread start finish stops spread
      exact ⟨middle, either_eq_ok_iff.mpr (.inl taken), spread, behind⟩

theorem solarReader_of_spread {numeral : Numeral} (direction : SolarDirection)
    (wellFormed : numeral.WellFormed)
    (spread : Spread ["solar".toList, ['('], numeral.spelling, [','], direction.token.toList, [')']]
      text []) :
    solarReader text = .ok (.solar (.ofDecimal numeral.value) direction, []) := by
  obtain ⟨_, word, spread, -⟩ :=
    (word_reads (by decide)).spaced_of_spread rfl spread stops_nil (stops_cons.mpr rfl)
  obtain ⟨_, opens, spread, -⟩ :=
    (character_reads (by decide)).spaced_of_spread rfl spread stops_nil fun _ _ => rfl
  obtain ⟨_, angle, spread, -⟩ := number_reads.spaced_of_spread ⟨numeral, wellFormed, rfl, rfl⟩
    spread stops_nil (stops_cons.mpr rfl)
  obtain ⟨_, comma, spread, -⟩ :=
    (character_reads (by decide)).spaced_of_spread rfl spread stops_nil fun _ _ => rfl
  obtain ⟨_, event, spread, -⟩ :=
    direction_reads.spaced_of_spread rfl spread stops_nil (stops_cons.mpr rfl)
  obtain ⟨_, closes, spread, stops⟩ :=
    (character_reads (by decide)).spaced_of_spread rfl spread stops_nil fun _ _ => rfl
  obtain rfl := spread.eq_left stops
  simp only [solarReader, opening, separator, closing, bind_eq_ok_iff, expecting_eq_ok_iff]
  exact ⟨(), _, word, (), _, opens, _, _, angle, (), _, comma, _, _, event, (), _, closes, rfl⟩

theorem proportionalReader_of_spread {numeral : Numeral} (wellFormed : numeral.WellFormed)
    (written : day.Parts parts)
    (spread : Spread (["proportional_hours".toList, ['('], numeral.spelling, [',']] ++
      (parts ++ [[')']])) text []) :
    proportionalReader text = .ok (.proportional (.ofDecimal numeral.value) day, []) := by
  obtain ⟨_, word, spread, -⟩ :=
    (word_reads (by decide)).spaced_of_spread rfl spread stops_nil (stops_cons.mpr rfl)
  obtain ⟨_, opens, spread, -⟩ :=
    (character_reads (by decide)).spaced_of_spread rfl spread stops_nil fun _ _ => rfl
  obtain ⟨_, count, spread, -⟩ := number_reads.spaced_of_spread ⟨numeral, wellFormed, rfl, rfl⟩
    spread stops_nil (stops_cons.mpr rfl)
  obtain ⟨_, comma, spread, -⟩ :=
    (character_reads (by decide)).spaced_of_spread rfl spread stops_nil fun _ _ => rfl
  obtain ⟨_, base, spread, -⟩ := day_of_spread written stops_nil spread (stops_cons.mpr rfl)
  obtain ⟨_, closes, spread, stops⟩ :=
    (character_reads (by decide)).spaced_of_spread rfl spread stops_nil fun _ _ => rfl
  obtain rfl := spread.eq_left stops
  simp only [proportionalReader, opening, separator, closing, bind_eq_ok_iff, expecting_eq_ok_iff]
  exact ⟨(), _, word, (), _, opens, _, _, count, (), _, comma, _, _, base, (), _, closes, rfl⟩

/-- Minutes are read up to their unit, which ends the text. -/
theorem offsetReader_of_laid {base : String} {spelling digits : List Char} (side : OffsetSide)
    (identifier : isIdentifier base = true) (spells : spelling ∈ nameSpellings base)
    (nonempty : digits ≠ []) (run : Run Char.isDigit digits)
    (fits : Nat.ofDigitChars 10 digits 0 < UInt32.size)
    (laid : Laid [spelling, [side.sign], digits ++ "min".toList] text) :
    offsetReader text =
      .ok (.offset base side (UInt32.ofNat (Nat.ofDigitChars 10 digits 0)), []) := by
  obtain ⟨before, _, blank, signed, rfl⟩ := laid.exists_next
  obtain ⟨after, _, same, final, rfl⟩ := signed.exists_next
  obtain rfl := final.eq_last
  have name := Solid.of_mem_nameSpellings identifier spells
  have mark : Solid [side.sign] := .mark (by cases side <;> decide)
  have amount : Stops isGap (digits ++ "min".toList) :=
    (Solid.of_digits nonempty run).stops_append
  have spread := Spread.next [] spelling run_nil name
    (.next before [side.sign] blank mark (.done after (digits ++ "min".toList) same))
  obtain ⟨_, base, spread, -⟩ := zman_reads.spaced_of_spread ⟨identifier, spells⟩ spread amount
    (by cases side <;> exact stops_cons.mpr rfl)
  obtain ⟨_, sign, spread, stops⟩ :=
    sign_reads.spaced_of_spread rfl spread amount fun _ _ => rfl
  obtain rfl := spread.eq_left stops
  have unit : Stops Char.isDigit "min".toList := stops_cons.mpr rfl
  have count := minutes_reads.complete ⟨nonempty, run, fits, rfl⟩ unit
  simp only [offsetReader, bind_eq_ok_iff, expecting_eq_ok_iff]
  exact ⟨_, _, base, side, _, sign, _, _, count, (), [], literal_eq_ok_iff.mpr rfl, rfl⟩

theorem fixedZmanReader_of_spread {name : String} {spelling : List Char}
    (identifier : isIdentifier name = true) (spells : spelling ∈ nameSpellings name)
    (spread : Spread [spelling] text []) :
    fixedZmanReader text = .ok (.fixedZman name, []) := by
  obtain ⟨_, taken, spread, stops⟩ :=
    zman_reads.spaced_of_spread ⟨identifier, spells⟩ spread stops_nil stops_nil
  obtain rfl := spread.eq_left stops
  exact bind_eq_ok_iff.mpr ⟨name, [], taken, rfl⟩

/-- Every text that writes a formula has a form. -/
theorem exists_reader_of_written (written : formula.Written text) :
    ∃ form : Form, form.reader text = .ok (formula, []) := by
  obtain ⟨parts, spelled, laid⟩ := written
  have spread := Spread.of_laid laid spelled.solid
  cases spelled with
  | solar direction wellFormed =>
      exact ⟨.solar, solarReader_of_spread direction wellFormed spread⟩
  | proportional wellFormed day =>
      rw [List.append_assoc] at spread
      exact ⟨.proportional, proportionalReader_of_spread wellFormed day spread⟩
  | offset side identifier spells nonempty run fits =>
      exact ⟨.offset, offsetReader_of_laid side identifier spells nonempty run fits laid⟩
  | fixedZman identifier spells =>
      exact ⟨.fixedZman, fixedZmanReader_of_spread identifier spells spread⟩

/-- The form that a text can have, from the name that it begins with and from what follows it. -/
def ofOpening (name : String) : List Char → Option Form
  | [] => some .fixedZman
  | '(' :: _ =>
      if name = "solar" then some .solar
      else if name = "proportional_hours" then some .proportional
      else none
  | first :: _ => (OffsetSide.ofSign? first).map fun _ => .offset

theorem named_of_opening {expected : String} {value other : Unit} {rest : List Char}
    (word : spaced (word expected) text = .ok (value, rest))
    (opens : opening rest = .ok (other, left)) :
    spaced zman text = .ok (expected, rest) ∧ ∃ inner, rest = '(' :: inner := by
  obtain ⟨_, inner, rfl, shape⟩ := (character_reads (by decide)).exists_append
    (stops_of_spaced word) (expecting_eq_ok_iff.mp opens)
  exact ⟨zman_of_word word, inner, shape⟩

/-- A text that a form takes begins with a name, and what follows the name tells the form. -/
theorem exists_ofOpening {form : Form} (read : form.reader text = .ok (formula, [])) :
    ∃ name rest, spaced zman text = .ok (name, rest) ∧ ofOpening name rest = some form := by
  cases form with
  | solar =>
      obtain ⟨_, rest, word, read⟩ := bind_eq_ok_iff.mp read
      obtain ⟨_, _, opens, -⟩ := bind_eq_ok_iff.mp read
      obtain ⟨named, inner, rfl⟩ := named_of_opening word opens
      exact ⟨"solar", _, named, rfl⟩
  | proportional =>
      obtain ⟨_, rest, word, read⟩ := bind_eq_ok_iff.mp read
      obtain ⟨_, _, opens, -⟩ := bind_eq_ok_iff.mp read
      obtain ⟨named, inner, rfl⟩ := named_of_opening word opens
      exact ⟨"proportional_hours", _, named, rfl⟩
  | offset =>
      obtain ⟨name, rest, base, read⟩ := bind_eq_ok_iff.mp read
      obtain ⟨side, _, sign, -⟩ := bind_eq_ok_iff.mp read
      obtain ⟨_, inner, rfl, rfl⟩ := sign_reads.exists_append (stops_of_spaced base) sign
      exact ⟨name, _, base, by cases side <;> rfl⟩
  | fixedZman =>
      obtain ⟨name, rest, taken, same⟩ := bind_eq_ok_iff.mp read
      obtain ⟨-, rfl⟩ := Prod.mk.inj (Except.ok.inj same)
      exact ⟨name, [], taken, rfl⟩

/-- A number between a bracket and a comma begins right after the bracket. -/
theorem exists_digit_of_number {expected : String} {word bracket : Unit} {number : Double}
    {inner behind within after : List Char} (identifier : isIdentifier expected = true)
    (stops : Stops isGap inner)
    (named : spaced (Reader.word expected) (expected.toList ++ '(' :: inner) = .ok (word, behind))
    (opens : opening behind = .ok (bracket, within))
    (count : spaced Reader.number within = .ok (number, after)) :
    ∃ first rest, inner = first :: rest ∧ first.isDigit = true := by
  obtain ⟨_, rfl, front⟩ := (word_reads identifier).spread named
  obtain ⟨_, rfl, mark⟩ :=
    (character_reads (by decide)).spread (expecting_eq_ok_iff.mp opens)
  obtain ⟨_, ⟨numeral, wellFormed, -, rfl⟩, amount⟩ := number_reads.spread count
  have whole := front.append (mark.append amount)
  have rest := (whole.of_append (.of_isIdentifier identifier)).of_append (.mark (by decide))
  obtain ⟨after, rfl⟩ := rest.exists_append stops
  obtain ⟨first, others, shape, digit⟩ := Numeral.exists_spelling_eq_cons wellFormed
  exact ⟨first, others ++ after, by rw [shape, List.cons_append], digit⟩

/-- A text of any form that begins with a name and a bracket goes on with a digit. -/
theorem exists_digit_of_reader {form : Form} {name : String} {inner : List Char}
    (identifier : isIdentifier name = true) (stops : Stops isGap inner)
    (read : form.reader (name.toList ++ '(' :: inner) = .ok (formula, [])) :
    ∃ first rest, inner = first :: rest ∧ first.isDigit = true := by
  have named : spaced zman (name.toList ++ '(' :: inner) = .ok (name, '(' :: inner) :=
    spaced_zman_append identifier (stops_cons.mpr rfl) (stops_cons.mpr rfl)
  cases form with
  | solar =>
      obtain ⟨_, _, word, read⟩ := bind_eq_ok_iff.mp read
      obtain ⟨_, _, opens, read⟩ := bind_eq_ok_iff.mp read
      obtain ⟨_, _, angle, -⟩ := bind_eq_ok_iff.mp read
      obtain ⟨rfl, -⟩ := Prod.mk.inj (Except.ok.inj (named.symm.trans (zman_of_word word)))
      exact exists_digit_of_number identifier stops word opens (expecting_eq_ok_iff.mp angle)
  | proportional =>
      obtain ⟨_, _, word, read⟩ := bind_eq_ok_iff.mp read
      obtain ⟨_, _, opens, read⟩ := bind_eq_ok_iff.mp read
      obtain ⟨_, _, count, -⟩ := bind_eq_ok_iff.mp read
      obtain ⟨rfl, -⟩ := Prod.mk.inj (Except.ok.inj (named.symm.trans (zman_of_word word)))
      exact exists_digit_of_number identifier stops word opens (expecting_eq_ok_iff.mp count)
  | offset =>
      obtain ⟨_, _, base, read⟩ := bind_eq_ok_iff.mp read
      obtain ⟨side, _, sign, -⟩ := bind_eq_ok_iff.mp read
      obtain ⟨-, rfl⟩ := Prod.mk.inj (Except.ok.inj (named.symm.trans base))
      obtain ⟨_, _, rfl, shape⟩ := sign_reads.exists_append (stops_of_spaced base) sign
      cases side <;> exact absurd (List.head_eq_of_cons_eq shape) (by decide)
  | fixedZman =>
      obtain ⟨_, _, taken, same⟩ := bind_eq_ok_iff.mp read
      obtain ⟨-, rfl⟩ := Prod.mk.inj (Except.ok.inj (named.symm.trans taken))
      exact absurd (Prod.mk.inj (Except.ok.inj same)).2 (by simp)

/-- No text has two forms. -/
theorem unique_of_reader {form other : Form} {second : Formula}
    (read : form.reader text = .ok (formula, [])) (again : other.reader text = .ok (second, [])) :
    form = other := by
  obtain ⟨name, rest, taken, tells⟩ := exists_ofOpening read
  obtain ⟨_, _, same, others⟩ := exists_ofOpening again
  obtain ⟨rfl, rfl⟩ := Prod.mk.inj (Except.ok.inj (taken.symm.trans same))
  exact Option.some.inj (tells.symm.trans others)

end Form
end Zmanim
