import Zmanim.Number.Decimal
/-! Double-precision numbers. -/

namespace Zmanim

/-- The finite sizes are ranked from zero; the first rank past them stands for infinity. -/
def finiteSizes : Nat := 2047 * Nat.pow 2 52

/-- What is not a number has a fraction other than zero. -/
def nanPayloads : Nat := Nat.pow 2 52 - 1

/-- A double is a signed finite size, a signed infinity, or not a number; every pattern of bits is a
double of its own. -/
inductive Double where
  | finite (negative : Bool) (rank : Fin finiteSizes)
  | infinite (negative : Bool)
  | nan (negative : Bool) (payload : Fin nanPayloads)
deriving DecidableEq

/-- The binary places of the unit in which sizes are counted. -/
def unitPlaces : Nat := 1074

/-- The number of units in one. -/
def unitsPerOne : Nat := Nat.pow 2 unitPlaces

namespace Rank

/-- Sizes of one scale are evenly spaced, and each scale doubles the spacing. -/
def scale (rank : Nat) : Nat := rank / Nat.pow 2 52 - 1

/-- The size of a rank, in units of 2⁻¹⁰⁷⁴. -/
def size (rank : Nat) : Nat := (rank - scale rank * Nat.pow 2 52) * Nat.pow 2 (scale rank)

/-- The greatest rank whose size does not exceed a number of units. -/
def below (units : Nat) : Nat :=
  let doublings := units.log2 - 52
  units / Nat.pow 2 doublings + doublings * Nat.pow 2 52

/-- The rank nearest to a ratio of units, the even one of two that are equally near. -/
def nearest (numerator denominator : Nat) : Nat :=
  let lower := below (numerator / denominator)
  let middle := (size lower + size (lower + 1)) * denominator
  if 2 * numerator < middle then lower
  else if middle < 2 * numerator then lower + 1
  else if lower % 2 = 0 then lower
  else lower + 1

/-- The rank nearest to a decimal. -/
def ofDecimal (decimal : Decimal) : Nat :=
  nearest (decimal.digits * unitsPerOne) (Nat.pow 10 decimal.places)

theorem size_of_scale_eq_zero {rank : Nat} (small : scale rank = 0) : size rank = rank := by
  simp [size, small]

theorem mantissa_bounds {rank : Nat} (large : scale rank ≠ 0) :
    Nat.pow 2 52 ≤ rank - scale rank * Nat.pow 2 52 ∧
      rank - scale rank * Nat.pow 2 52 < Nat.pow 2 53 := by
  simp only [scale, Nat.pow_eq] at *
  omega

theorem below_size (rank : Nat) : below (size rank) = rank := by
  by_cases small : scale rank = 0
  · have bound : rank < 2 ^ 53 := by
      simp only [scale, Nat.pow_eq] at small
      omega
    have log : rank.log2 - 52 = 0 := by
      by_cases zero : rank = 0
      · subst zero; decide
      · have := (Nat.log2_lt zero).mpr bound
        omega
    simp [size_of_scale_eq_zero small, below, log]
  · have bounds := mantissa_bounds small
    have value : size rank = (rank - scale rank * 2 ^ 52) * 2 ^ scale rank := rfl
    simp only [Nat.pow_eq] at bounds
    have log : (size rank).log2 = 52 + scale rank := by
      have positive := Nat.two_pow_pos (scale rank)
      have nonzero : size rank ≠ 0 := by
        rw [value]
        exact Nat.ne_of_gt (Nat.mul_pos (by omega) positive)
      rw [Nat.log2_eq_iff nonzero, value]
      constructor
      · rw [Nat.pow_add]
        exact Nat.mul_le_mul_right _ bounds.1
      · rw [show 52 + scale rank + 1 = 53 + scale rank by omega, Nat.pow_add]
        exact Nat.mul_lt_mul_of_pos_right bounds.2 positive
    have enough : scale rank * 2 ^ 52 ≤ rank := by
      simp only [scale, Nat.pow_eq]
      omega
    simp only [below, log, Nat.add_sub_cancel_left, Nat.pow_eq]
    rw [value, Nat.mul_div_cancel _ (Nat.two_pow_pos _)]
    omega

/-- A greater rank has a greater size. -/
theorem size_lt_size_succ (rank : Nat) : size rank < size (rank + 1) := by
  have enough : scale rank * 2 ^ 52 ≤ rank := by
    simp only [scale, Nat.pow_eq]
    omega
  have next : scale (rank + 1) = scale rank ∨
      scale (rank + 1) = scale rank + 1 ∧ rank + 1 = scale rank * 2 ^ 52 + 2 ^ 53 := by
    simp only [scale, Nat.pow_eq]
    omega
  simp only [size, Nat.pow_eq]
  rcases next with same | ⟨doubled, top⟩
  · rw [same]
    exact Nat.mul_lt_mul_of_pos_right (by omega) (Nat.two_pow_pos _)
  · have first : rank - scale rank * 2 ^ 52 < 2 ^ 53 := by omega
    have second : rank + 1 - (scale rank + 1) * 2 ^ 52 = 2 ^ 52 := by omega
    rw [doubled, second, ← Nat.pow_add, show 52 + (scale rank + 1) = 53 + scale rank by omega,
      Nat.pow_add]
    exact Nat.mul_lt_mul_of_pos_right first (Nat.two_pow_pos _)

/-- A size is nearest to its own rank. -/
theorem nearest_size (rank : Nat) {factor : Nat} (positive : 0 < factor) :
    nearest (size rank * factor) factor = rank := by
  have step := Nat.mul_lt_mul_of_pos_right
    (Nat.add_lt_add_left (size_lt_size_succ rank) (size rank)) positive
  unfold nearest
  rw [Nat.mul_div_cancel _ positive, below_size, if_pos]
  rw [← Nat.mul_assoc, Nat.two_mul]
  exact step

/-- Rounding looks at the ratio alone. -/
theorem nearest_mul (numerator denominator : Nat) {factor : Nat} (positive : 0 < factor) :
    nearest (numerator * factor) (denominator * factor) = nearest numerator denominator := by
  unfold nearest
  rw [Nat.mul_div_mul_right _ _ positive]
  simp only [← Nat.mul_assoc, Nat.mul_lt_mul_right positive]

end Rank

namespace Double

/-- The size of a rank, infinite past the last finite one. -/
def ofRank (negative : Bool) (rank : Nat) : Double :=
  if finite : rank < finiteSizes then .finite negative ⟨rank, finite⟩ else .infinite negative

/-- A decimal is read as the nearest double, or as infinity when it is too large. -/
def ofDecimal (decimal : Decimal) : Double := ofRank false (Rank.ofDecimal decimal)

/-- The opposite of a double differs from it in the sign alone, also for zero. -/
def neg : Double → Double
  | .finite negative rank => .finite (!negative) rank
  | .infinite negative => .infinite (!negative)
  | .nan negative payload => .nan (!negative) payload

instance : Neg Double := ⟨neg⟩

/-- An integer is read as the nearest double. -/
def ofInt (value : Int) : Double :=
  if value < 0 then -ofDecimal ⟨value.natAbs, 0⟩ else ofDecimal ⟨value.natAbs, 0⟩

instance (value : Nat) : OfNat Double value := ⟨ofDecimal ⟨value, 0⟩⟩

instance : OfScientific Double where
  ofScientific digits negativeExponent exponent :=
    if negativeExponent then ofDecimal ⟨digits, exponent⟩ else ofDecimal ⟨digits * Nat.pow 10 exponent, 0⟩

/-- Whether a number is neither infinite nor undefined. -/
def isFinite : Double → Bool
  | .finite _ _ => true
  | _ => false

/-- Numbers stand in the order of their signed ranks; both zeros have ordinal zero. -/
def ordinal : Double → Option Int
  | .finite negative rank => some (if negative then -(rank.val : Int) else rank.val)
  | .infinite negative => some (if negative then -(finiteSizes : Int) else finiteSizes)
  | .nan _ _ => none

/-- The order of numbers; what is not a number stands in no order. -/
protected def le (first second : Double) : Bool :=
  match first.ordinal, second.ordinal with
  | some low, some high => low ≤ high
  | _, _ => false

instance : LE Double := ⟨fun first second => first.le second = true⟩

instance (first second : Double) : Decidable (first ≤ second) :=
  inferInstanceAs (Decidable (first.le second = true))

/-- Equality as numbers identifies the two zeros; what is not a number equals nothing. -/
def sameNumber (first second : Double) : Bool :=
  first.ordinal.isSome && first.ordinal == second.ordinal

end Double

end Zmanim
