import Mathlib.Algebra.Group.Nat.Defs
import Zmanim.Number.Double
/-! Rounding to doubles. -/

namespace Zmanim

namespace Rank

theorem size_lt_size {low high : Nat} (less : low < high) : size low < size high := by
  induction less with
  | refl => exact size_lt_size_succ low
  | step _ ih => exact Nat.lt_trans ih (size_lt_size_succ _)

theorem size_le_size {low high : Nat} (bound : low ≤ high) : size low ≤ size high := by
  rcases Nat.eq_or_lt_of_le bound with rfl | less
  · exact Nat.le_refl _
  · exact Nat.le_of_lt (size_lt_size less)

/-- The size of a mantissa on a scale; only the first scale has short mantissas. -/
theorem size_mantissa {mantissa doublings : Nat} (fits : mantissa ≤ 2 ^ 53)
    (full : doublings = 0 ∨ 2 ^ 52 ≤ mantissa) :
    size (mantissa + doublings * 2 ^ 52) = mantissa * 2 ^ doublings := by
  have scales : scale (mantissa + doublings * 2 ^ 52) = doublings ∧ mantissa < 2 ^ 53 ∨
      scale (mantissa + doublings * 2 ^ 52) = doublings + 1 ∧ mantissa = 2 ^ 53 := by
    simp only [scale, Nat.pow_eq]
    omega
  rcases scales with ⟨same, -⟩ | ⟨next, rfl⟩
  · rw [size, same, Nat.pow_eq, Nat.pow_eq, Nat.add_sub_cancel]
  · have rest : 2 ^ 53 + doublings * 2 ^ 52 - (doublings + 1) * 2 ^ 52 = 2 ^ 52 := by omega
    rw [size, next, Nat.pow_eq, Nat.pow_eq, rest, ← Nat.pow_add, ← Nat.pow_add]
    congr 1
    omega

/-- The mantissa of a number of units fits its scale. -/
theorem mantissa_below (units : Nat) :
    units / 2 ^ (units.log2 - 52) < 2 ^ 53 ∧
      (units.log2 - 52 = 0 ∨ 2 ^ 52 ≤ units / 2 ^ (units.log2 - 52)) := by
  have positive : 0 < 2 ^ (units.log2 - 52) := Nat.two_pow_pos _
  constructor
  · rw [Nat.div_lt_iff_lt_mul positive, ← Nat.pow_add]
    have above : units < 2 ^ (units.log2 + 1) := Nat.lt_log2_self
    exact Nat.lt_of_lt_of_le above (Nat.pow_le_pow_right (by decide) (by omega))
  · by_cases short : units.log2 - 52 = 0
    · exact .inl short
    · refine .inr ((Nat.le_div_iff_mul_le positive).mpr ?_)
      have nonzero : units ≠ 0 := by
        rintro rfl
        exact short rfl
      rw [← Nat.pow_add, show 52 + (units.log2 - 52) = units.log2 by omega]
      exact Nat.log2_self_le nonzero

/-- A number of units lies between the size of its rank and the next size. -/
theorem size_below (units : Nat) :
    size (below units) ≤ units ∧ units < size (below units + 1) := by
  obtain ⟨fits, full⟩ := mantissa_below units
  have lower := size_mantissa (Nat.le_of_lt fits) full
  have upper := size_mantissa fits (full.imp_right Nat.le_succ_of_le)
  rw [Nat.succ_add] at upper
  constructor
  · exact lower ▸ Nat.div_mul_le_self _ _
  · exact upper ▸ (Nat.div_lt_iff_lt_mul (Nat.two_pow_pos _)).mp (Nat.lt_succ_self _)

/-- Twice the middle between the size of a rank and the next size. -/
def middle (rank : Nat) : Nat := size rank + size (rank + 1)

theorem middle_bounds (rank : Nat) :
    2 * size rank < middle rank ∧ middle rank < 2 * size (rank + 1) := by
  have step := size_lt_size_succ rank
  unfold middle
  omega

/-- A ratio is not past the middle above a rank; the middle itself belongs to the even rank. -/
def Within (numerator denominator rank : Nat) : Prop :=
  2 * numerator < middle rank * denominator ∨
    2 * numerator = middle rank * denominator ∧ rank % 2 = 0

/-- The next rank is taken exactly when a ratio is past the middle above the rank below it. -/
theorem nearest_cases (numerator denominator : Nat) :
    nearest numerator denominator = below (numerator / denominator) ∧
        Within numerator denominator (below (numerator / denominator)) ∨
      nearest numerator denominator = below (numerator / denominator) + 1 ∧
        ¬ Within numerator denominator (below (numerator / denominator)) := by
  unfold nearest Within middle
  simp only
  split
  · omega
  · split
    · omega
    · split <;> omega

/-- A ratio is rounded to a rank or below it exactly when it is not past the middle above the
rank. -/
theorem nearest_le_iff {numerator denominator rank : Nat} (positive : 0 < denominator) :
    nearest numerator denominator ≤ rank ↔ Within numerator denominator rank := by
  obtain ⟨lower, upper⟩ := size_below (numerator / denominator)
  rw [Nat.le_div_iff_mul_le positive] at lower
  rw [Nat.div_lt_iff_lt_mul positive] at upper
  have rounded := nearest_cases numerator denominator
  unfold Within at rounded ⊢
  generalize below (numerator / denominator) = bottom at lower upper rounded
  rcases Nat.lt_trichotomy bottom rank with less | rfl | greater
  · have inside : size (bottom + 1) * denominator ≤ size rank * denominator :=
      Nat.mul_le_mul_right _ (size_le_size less)
    have half : 2 * size rank * denominator < middle rank * denominator :=
      Nat.mul_lt_mul_of_pos_right (middle_bounds rank).1 positive
    rw [Nat.mul_assoc] at half
    omega
  · omega
  · have inside : size (rank + 1) * denominator ≤ size bottom * denominator :=
      Nat.mul_le_mul_right _ (size_le_size greater)
    have half : middle rank * denominator < 2 * size (rank + 1) * denominator :=
      Nat.mul_lt_mul_of_pos_right (middle_bounds rank).2 positive
    rw [Nat.mul_assoc] at half
    omega

end Rank

namespace Double

theorem isFinite_ofRank_iff {negative : Bool} {rank : Nat} :
    (ofRank negative rank).isFinite = true ↔ rank < finiteSizes := by
  unfold ofRank
  split <;> simp_all [isFinite]

/-- A decimal is read as a finite number exactly when it is less than half a step past the greatest
finite size. -/
theorem isFinite_ofDecimal_iff {decimal : Decimal} :
    (ofDecimal decimal).isFinite = true ↔
      decimal.digits < (2 ^ 1024 - 2 ^ 970) * 10 ^ decimal.places := by
  have top : Rank.middle (finiteSizes - 1) = 2 * unitsPerOne * (2 ^ 1024 - 2 ^ 970) := by
    decide +kernel
  have odd : (finiteSizes - 1) % 2 ≠ 0 := by decide
  have positive : 0 < 2 * unitsPerOne := by decide +kernel
  have last : Rank.ofDecimal decimal < finiteSizes ↔
      Rank.ofDecimal decimal ≤ finiteSizes - 1 := Nat.lt_iff_le_pred (by decide)
  rw [ofDecimal, isFinite_ofRank_iff, last, Rank.ofDecimal, Nat.pow_eq,
    Rank.nearest_le_iff (Nat.pow_pos (by decide)), Rank.Within, top]
  have twice : 2 * (decimal.digits * unitsPerOne) = 2 * unitsPerOne * decimal.digits := by
    rw [Nat.mul_comm decimal.digits, Nat.mul_assoc]
  rw [twice, Nat.mul_assoc (2 * unitsPerOne), Nat.mul_lt_mul_left positive]
  constructor
  · rintro (below | ⟨-, even⟩)
    · exact below
    · exact absurd even odd
  · exact .inl

end Double

end Zmanim
