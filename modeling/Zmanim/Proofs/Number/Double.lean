import Zmanim.Formula.Text
import Zmanim.Number.Range
import Zmanim.Proofs.Number.Numeral
/-! Doubles in a formula. -/

namespace Zmanim

namespace Double

variable {first second number : Double}

theorem zero_eq : (0 : Double) = .finite false ⟨0, by decide⟩ := by
  decide +kernel

theorem ordinal_zero : (0 : Double).ordinal = some 0 := by
  rw [zero_eq]
  rfl

theorem sameNumber_iff :
    first.sameNumber second = true ↔
      ∃ place, first.ordinal = some place ∧ second.ordinal = some place := by
  unfold sameNumber
  generalize first.ordinal = low
  generalize second.ordinal = high
  cases low with
  | none => simp
  | some place =>
      rw [Option.isSome_some, Bool.true_and, beq_iff_eq]
      constructor
      · rintro rfl
        exact ⟨place, rfl, rfl⟩
      · rintro ⟨_, low, high⟩
        exact low.trans high.symm

/-- Apart from the zeros, a number is the size of its ordinal with the sign of its ordinal. -/
theorem ofRank_ordinal {place : Int} (nonzero : place ≠ 0) (found : number.ordinal = some place) :
    ofRank (decide (place < 0)) place.natAbs = number := by
  cases number with
  | finite negative rank =>
      obtain rfl := Option.some.inj found
      cases negative with
      | false => simp [ofRank]
      | true =>
          have positive : 0 < rank.val := by
            simp only [reduceIte] at nonzero
            omega
          simp [ofRank, positive]
  | infinite negative =>
      obtain rfl := Option.some.inj found
      cases negative <;> rfl
  | nan => simp [ordinal] at found

/-- Apart from the two zeros, a number is known by its ordinal. -/
theorem eq_of_ordinal {place : Int} (nonzero : place ≠ 0) (low : first.ordinal = some place)
    (high : second.ordinal = some place) : first = second :=
  (ofRank_ordinal nonzero low).symm.trans (ofRank_ordinal nonzero high)

/-- A number as a formula writes it: zero has no sign. -/
def normal (number : Double) : Double := if number.sameNumber 0 then 0 else number

theorem ordinal_normal (number : Double) : number.normal.ordinal = number.ordinal := by
  unfold normal
  split
  · rename_i zero
    obtain ⟨place, left, right⟩ := sameNumber_iff.mp zero
    rw [left, right]
  · rfl

theorem normal_eq_of_sameNumber (same : first.sameNumber second = true) :
    first.normal = second.normal := by
  obtain ⟨place, left, right⟩ := sameNumber_iff.mp same
  by_cases zero : place = 0
  · subst zero
    rw [normal, normal, if_pos (sameNumber_iff.mpr ⟨0, left, ordinal_zero⟩),
      if_pos (sameNumber_iff.mpr ⟨0, right, ordinal_zero⟩)]
  · rw [eq_of_ordinal zero left right]

theorem text_normal (number : Double) : number.normal.text = number.formulaText := by
  have zero : (0 : Double).text = "0" := by
    rw [zero_eq]
    decide +kernel
  unfold normal formulaText
  split
  · exact zero
  · rfl

theorem normal_normal (number : Double) : number.normal.normal = number.normal := by
  have zero : (0 : Double).normal = 0 := by unfold normal; split <;> rfl
  by_cases same : number.sameNumber 0 = true
  · have none : number.normal = 0 := if_pos same
    rw [none, zero]
  · have itself : number.normal = number := if_neg same
    rw [itself, itself]

theorem le_iff : first ≤ second ↔
    ∃ low high, first.ordinal = some low ∧ second.ordinal = some high ∧ low ≤ high := by
  change first.le second = true ↔ _
  unfold Double.le
  split
  · rename_i low high left right
    rw [left, right, decide_eq_true_iff]
    constructor
    · intro bound
      exact ⟨low, high, rfl, rfl, bound⟩
    · rintro ⟨_, _, same, other, bound⟩
      rwa [Option.some.inj same, Option.some.inj other]
  · rename_i missing
    constructor
    · intro impossible
      exact absurd impossible (by decide)
    · rintro ⟨low, high, left, right, -⟩
      exact absurd right (missing low high left)

theorem contains_normal (range : NumberRange) (number : Double) :
    range.contains number.normal = range.contains number := by
  rw [Bool.eq_iff_iff, NumberRange.contains_iff, NumberRange.contains_iff]
  simp only [le_iff, ordinal_normal]

/-- A number that an unsigned numeral can write is finite and not negative. -/
structure Unsigned (number : Double) : Prop where
  finite : number.isFinite = true
  nonnegative : 0 ≤ number

theorem isFinite_iff :
    number.isFinite = true ↔
      ∃ place, number.ordinal = some place ∧ place.natAbs < finiteSizes := by
  cases number with
  | finite negative rank =>
      refine ⟨fun _ => ⟨_, rfl, ?_⟩, fun _ => rfl⟩
      cases negative <;> simp
  | infinite negative =>
      refine ⟨nofun, ?_⟩
      rintro ⟨_, same, bound⟩
      obtain rfl := Option.some.inj same
      cases negative <;> exact absurd bound (by decide)
  | nan => exact ⟨nofun, nofun⟩

theorem unsigned_iff :
    number.Unsigned ↔ ∃ place, number.ordinal = some place ∧ 0 ≤ place ∧ place < finiteSizes := by
  constructor
  · rintro ⟨finite, nonnegative⟩
    obtain ⟨place, found, bound⟩ := isFinite_iff.mp finite
    obtain ⟨low, high, left, right, order⟩ := le_iff.mp nonnegative
    obtain rfl : 0 = low := Option.some.inj (ordinal_zero.symm.trans left)
    obtain rfl : place = high := Option.some.inj (found.symm.trans right)
    exact ⟨place, found, order, by omega⟩
  · rintro ⟨place, found, order, bound⟩
    have finite : number.isFinite = true := isFinite_iff.mpr ⟨place, found, by omega⟩
    exact ⟨finite, le_iff.mpr ⟨0, place, ordinal_zero, found, order⟩⟩

theorem unsigned_normal : number.normal.Unsigned ↔ number.Unsigned := by
  simp only [unsigned_iff, ordinal_normal]

theorem Unsigned.sameNumber_normal (unsigned : number.Unsigned) :
    number.normal.sameNumber number = true := by
  obtain ⟨place, found, -⟩ := unsigned_iff.mp unsigned
  exact sameNumber_iff.mpr ⟨place, (ordinal_normal number).trans found, found⟩

theorem Unsigned.exists_normal (unsigned : number.Unsigned) :
    ∃ rank, number.normal = .finite false rank := by
  obtain ⟨place, found, nonnegative, bound⟩ := unsigned_iff.mp unsigned
  by_cases zero : place = 0
  · subst zero
    have same : number.sameNumber 0 = true :=
      sameNumber_iff.mpr ⟨0, found, ordinal_zero⟩
    exact ⟨_, (if_pos same).trans zero_eq⟩
  · rw [← ordinal_normal] at found
    have whole := ofRank_ordinal zero found
    have sign : decide (place < 0) = false := decide_eq_false (by omega)
    rw [sign, ofRank, dif_pos (by omega)] at whole
    exact ⟨_, whole.symm⟩

/-- What a formula writes for an unsigned number is a numeral of it. -/
theorem Unsigned.exists_numeral (unsigned : number.Unsigned) :
    ∃ numeral : Numeral, numeral.WellFormed ∧ number.formulaText.toList = numeral.spelling ∧
      number.normal = ofDecimal numeral.value := by
  obtain ⟨rank, normal⟩ := unsigned.exists_normal
  refine ⟨(Rank.shortest rank).numeral, Decimal.wellFormed_numeral _, ?_, ?_⟩
  · rw [← text_normal, normal]
    simp [text, Decimal.text]
  · rw [Decimal.value_numeral, ofDecimal_shortest, normal]

/-- What a formula writes for any other number begins with a sign or a letter. -/
theorem exists_mark_of_not_unsigned (signed : ¬ number.Unsigned) :
    ∃ first rest, number.formulaText.toList = first :: rest ∧ Text.isGap first = false ∧
      first.isDigit = false := by
  have nonzero : number.sameNumber 0 = false := by
    refine Bool.eq_false_iff.mpr fun same => signed ?_
    obtain ⟨place, found, zero⟩ := sameNumber_iff.mp same
    obtain rfl := Option.some.inj (ordinal_zero.symm.trans zero)
    exact unsigned_iff.mpr ⟨0, found, by decide, by decide⟩
  have plain : number.formulaText = number.text := if_neg (by simp [nonzero])
  rw [plain]
  cases number with
  | finite negative rank =>
      cases negative with
      | false => exact absurd (unsigned_iff.mpr ⟨rank, rfl, by omega, by simp⟩) signed
      | true => exact ⟨'-', (Rank.shortest rank).text.toList, by simp [text], rfl, rfl⟩
  | infinite negative =>
      cases negative with
      | false => exact ⟨'i', ['n', 'f'], rfl, rfl, rfl⟩
      | true => exact ⟨'-', ['i', 'n', 'f'], rfl, rfl, rfl⟩
  | nan => exact ⟨'N', ['a', 'N'], by simp [text], rfl, rfl⟩

theorem normal_finite (rank : Fin finiteSizes) :
    (finite false rank).normal = .finite false rank := by
  have unsigned : (finite false rank).Unsigned :=
    unsigned_iff.mpr ⟨rank, rfl, by omega, by simp⟩
  obtain ⟨other, normal⟩ := unsigned.exists_normal
  have same := ordinal_normal (finite false rank)
  rw [normal] at same
  have equal : (other.val : Int) = rank := Option.some.inj same
  rw [normal, Fin.ext (Int.ofNat.inj equal)]

theorem normal_infinite (negative : Bool) :
    (infinite negative).normal = .infinite negative := by
  cases negative <;> decide +kernel

/-- A decimal is never read as a number with a sign. -/
theorem ofDecimal_cases (decimal : Decimal) :
    (∃ rank, ofDecimal decimal = .finite false rank) ∨ ofDecimal decimal = .infinite false := by
  unfold ofDecimal ofRank
  split
  · exact .inl ⟨_, rfl⟩
  · exact .inr rfl

theorem normal_ofDecimal (decimal : Decimal) : (ofDecimal decimal).normal = ofDecimal decimal := by
  rcases ofDecimal_cases decimal with ⟨rank, finite⟩ | infinite
  · rw [finite, normal_finite]
  · rw [infinite, normal_infinite]

/-- A decimal is read as an unsigned number unless it is too large to be finite. -/
theorem unsigned_ofDecimal {decimal : Decimal} (finite : (ofDecimal decimal).isFinite = true) :
    (ofDecimal decimal).Unsigned := by
  rcases ofDecimal_cases decimal with ⟨rank, same⟩ | infinite
  · rw [same]
    exact unsigned_iff.mpr ⟨rank, rfl, by omega, by simp⟩
  · rw [infinite] at finite
    exact absurd finite (by decide)

theorem eq_infinite_of_ofDecimal {decimal : Decimal}
    (infinite : (ofDecimal decimal).isFinite ≠ true) : ofDecimal decimal = .infinite false := by
  rcases ofDecimal_cases decimal with ⟨rank, same⟩ | same
  · rw [same] at infinite
    exact absurd rfl infinite
  · exact same

end Double

end Zmanim
