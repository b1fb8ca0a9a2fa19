/-! Decimals and the numerals that write them. -/

namespace Zmanim

/-- A decimal is a count of units of its last decimal place. -/
structure Decimal where
  digits : Nat
  places : Nat
deriving DecidableEq, Repr

/-- A numeral is a run of digits, with a point and a second run when that run is not empty. -/
structure Numeral where
  whole : List Char
  fraction : List Char
deriving DecidableEq, Repr

namespace Numeral

/-- The characters of a numeral. -/
def spelling (numeral : Numeral) : List Char :=
  if numeral.fraction = [] then numeral.whole else numeral.whole ++ '.' :: numeral.fraction

/-- The decimal that a numeral writes. -/
def value (numeral : Numeral) : Decimal :=
  ⟨Nat.ofDigitChars 10 (numeral.whole ++ numeral.fraction) 0, numeral.fraction.length⟩

/-- The digits after a leading point, with the text after them; a point needs a digit after it. -/
def scanFraction : List Char → List Char × List Char
  | '.' :: rest =>
      if rest.takeWhile Char.isDigit = [] then ([], '.' :: rest)
      else (rest.takeWhile Char.isDigit, rest.dropWhile Char.isDigit)
  | rest => ([], rest)

/-- The longest numeral at the start of a text, with the text after it. -/
def scan (text : List Char) : Option (Numeral × List Char) :=
  if text.takeWhile Char.isDigit = [] then none
  else
    let (fraction, left) := scanFraction (text.dropWhile Char.isDigit)
    some (⟨text.takeWhile Char.isDigit, fraction⟩, left)

theorem scanFraction_spelling (text : List Char) :
    (if (scanFraction text).1 = [] then [] else '.' :: (scanFraction text).1)
      ++ (scanFraction text).2 = text := by
  unfold scanFraction
  split
  · split
    · simp
    · rename_i nonempty
      simp
  · simp

theorem append_of_scan {text left : List Char} {numeral : Numeral}
    (found : scan text = some (numeral, left)) : numeral.spelling ++ left = text := by
  unfold scan at found
  split at found
  · simp at found
  · obtain ⟨rfl, rfl⟩ := Prod.mk.inj (Option.some.inj found)
    have rest := scanFraction_spelling (text.dropWhile Char.isDigit)
    rw [← List.takeWhile_append_dropWhile (p := Char.isDigit) (l := text)]
    unfold spelling
    split at rest <;> simp_all

theorem whole_ne_nil_of_scan {text left : List Char} {numeral : Numeral}
    (found : scan text = some (numeral, left)) : numeral.whole ≠ [] := by
  unfold scan at found
  split at found
  · simp at found
  · obtain ⟨rfl, rfl⟩ := Prod.mk.inj (Option.some.inj found)
    assumption

theorem spelling_ne_nil_of_scan {text left : List Char} {numeral : Numeral}
    (found : scan text = some (numeral, left)) : numeral.spelling ≠ [] := by
  have whole := whole_ne_nil_of_scan found
  unfold spelling
  split <;> simp [whole]

end Numeral

namespace Decimal

/-- The numeral of a decimal has exactly its places and no needless zero before them. -/
def numeral (decimal : Decimal) : Numeral :=
  if decimal.places = 0 then ⟨Nat.toDigits 10 decimal.digits, []⟩
  else
    ⟨Nat.toDigits 10 (decimal.digits / Nat.pow 10 decimal.places),
      (Nat.toDigits 10 (decimal.digits % Nat.pow 10 decimal.places)).leftpad decimal.places '0'⟩

theorem length_fraction_le (digits : Nat) {places : Nat} (some : places ≠ 0) :
    (Nat.toDigits 10 (digits % Nat.pow 10 places)).length ≤ places :=
  (Nat.length_toDigits_le_iff (by decide) (Nat.pos_of_ne_zero some)).mpr
    (Nat.mod_lt _ (Nat.pow_pos (by decide)))

/-- A decimal is the value of its numeral. -/
theorem value_numeral (decimal : Decimal) : decimal.numeral.value = decimal := by
  obtain ⟨digits, places⟩ := decimal
  unfold numeral
  split
  · rename_i none
    simp only at none
    subst none
    simp [Numeral.value, Nat.ofDigitChars_ten_toDigits]
  · rename_i some
    simp only at some
    have fits := length_fraction_le digits some
    have width :
        ((Nat.toDigits 10 (digits % Nat.pow 10 places)).leftpad places '0').length = places := by
      rw [List.length_leftpad, Nat.max_eq_left fits]
    have padded : Nat.ofDigitChars 10
        ((Nat.toDigits 10 (digits % Nat.pow 10 places)).leftpad places '0') 0 =
          digits % Nat.pow 10 places := by
      rw [List.leftpad, Nat.ofDigitChars_append, Nat.ofDigitChars_replicate_zero, Nat.mul_zero,
        Nat.ofDigitChars_ten_toDigits]
    unfold Numeral.value
    simp only
    rw [width, Nat.ofDigitChars_append, Nat.ofDigitChars_ten_toDigits,
      Nat.ofDigitChars_eq_ofDigitChars_zero, width, padded, Nat.pow_eq, Nat.div_add_mod]

/-- The text of a decimal never has an exponent. -/
def text (decimal : Decimal) : String := String.ofList decimal.numeral.spelling

/-- Zeros at the end of the places are dropped. -/
def trimmed (digits : Nat) : Nat → Decimal
  | 0 => ⟨digits, 0⟩
  | places + 1 => if digits % 10 = 0 then trimmed (digits / 10) places else ⟨digits, places + 1⟩

end Decimal

end Zmanim
