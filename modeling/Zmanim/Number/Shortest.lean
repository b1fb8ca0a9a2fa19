import Zmanim.Number.Double
/-! The text of a double. -/

namespace Zmanim

/-- The decimal places of the grid on which digits are chosen. The least positive double has
seventeen digits before the end of this grid, and no double needs more. -/
def gridPlaces : Nat := 340

/-- The exact decimal of a size in units of 2⁻¹⁰⁷⁴. -/
def Decimal.ofSize (size : Nat) : Decimal := Decimal.trimmed (size * Nat.pow 5 unitPlaces) unitPlaces

namespace Rank

/-- Whether a number of steps of the grid reads back to a rank. -/
def readsBack (rank : Nat) (steps : Nat) : Bool := ofDecimal ⟨steps, gridPlaces⟩ == rank

/-- The better of two numbers of steps around a size: the one that reads back to its rank, and the
nearer one if both do. -/
def choose (rank : Nat) (lower upper : Nat) : Option Nat :=
  if readsBack rank lower then
    if readsBack rank upper
        && (lower + upper) * unitsPerOne ≤ 2 * (size rank * Nat.pow 10 gridPlaces) then
      some upper
    else some lower
  else if readsBack rank upper then some upper
  else none

/-- The best number of steps with a number of significant digits, if one reads back. -/
def withDigits (rank : Nat) (count : Nat) : Option Nat :=
  let steps := size rank * Nat.pow 10 gridPlaces / unitsPerOne
  let unit := Nat.pow 10 ((Nat.toDigits 10 steps).length - count)
  let lower := steps / unit * unit
  choose rank lower (lower + unit)

/-- The shortest decimal that reads back to a rank. Of equally short ones the nearest is taken, and
the upper one of two that are equally near. -/
def shortest (rank : Nat) : Decimal :=
  if rank = 0 then ⟨0, 0⟩
  else
    match (List.range 17).findSome? fun fewer => withDigits rank (fewer + 1) with
    | some steps => Decimal.trimmed steps gridPlaces
    | none => Decimal.ofSize (size rank)

/-- Zeros at the end of a decimal do not change how it is read. -/
theorem ofDecimal_trimmed (digits places : Nat) :
    ofDecimal (Decimal.trimmed digits places) = ofDecimal ⟨digits, places⟩ := by
  induction places generalizing digits with
  | zero => rfl
  | succ places ih =>
    unfold Decimal.trimmed
    split
    · rename_i whole
      rw [ih]
      have tenths : digits = digits / 10 * 10 := by omega
      unfold ofDecimal
      simp only [Nat.pow_eq]
      rw [Nat.pow_succ]
      conv => rhs; rw [tenths, Nat.mul_right_comm]
      rw [nearest_mul _ _ (by decide)]
    · rfl

theorem ofDecimal_ofSize (rank : Nat) : ofDecimal (Decimal.ofSize (size rank)) = rank := by
  have ten (places : Nat) : 10 ^ places = 5 ^ places * 2 ^ places := Nat.mul_pow 5 2 places
  unfold Decimal.ofSize
  rw [ofDecimal_trimmed]
  unfold ofDecimal unitsPerOne
  simp only [Nat.pow_eq]
  generalize unitPlaces = places
  rw [ten places, Nat.mul_assoc]
  exact nearest_size rank
    (Nat.mul_pos (Nat.pow_pos (by decide)) (Nat.pow_pos (by decide)))

theorem readsBack_of_choose {rank lower upper steps : Nat}
    (found : choose rank lower upper = some steps) : readsBack rank steps = true := by
  unfold choose at found
  split at found
  · split at found <;> simp_all
  · split at found <;> simp_all

/-- The shortest decimal reads back to its rank. -/
theorem ofDecimal_shortest (rank : Nat) : ofDecimal (shortest rank) = rank := by
  unfold shortest
  split
  · rename_i zero
    subst zero
    decide +kernel
  · split
    · rename_i steps found
      obtain ⟨_, _, chosen⟩ := List.exists_of_findSome?_eq_some found
      rw [ofDecimal_trimmed]
      exact beq_iff_eq.mp (readsBack_of_choose chosen)
    · exact ofDecimal_ofSize rank

end Rank

/-- The shortest decimal of a finite size reads back to it. -/
theorem Double.ofDecimal_shortest (rank : Fin finiteSizes) :
    Double.ofDecimal (Rank.shortest rank) = .finite false rank := by
  simp [Double.ofDecimal, Rank.ofDecimal_shortest, Double.ofRank]

/-- The text of a number, with a sign only if it is negative. -/
def Double.text : Double → String
  | .finite negative rank => (if negative then "-" else "") ++ (Rank.shortest rank).text
  | .infinite negative => if negative then "-inf" else "inf"
  | .nan _ _ => "NaN"

end Zmanim
