import Zmanim.Formula.Basic
import Zmanim.Number.Shortest
/-! Canonical formula text. -/

namespace Zmanim

/-- Numbers in a formula have no sign when they are zero. -/
def Double.formulaText (number : Double) : String :=
  if number.sameNumber 0 then "0" else number.text

/-- A custom day that lacks an endpoint is written as its word alone. -/
def Day.text : Day → String
  | .custom (some start) (some finish) =>
      if start.isEmpty || finish.isEmpty then DayKind.custom.token
      else "custom(@" ++ start ++ ", @" ++ finish ++ ")"
  | day => day.kind.token

/-- The canonical text of a formula. -/
def Formula.text : Formula → String
  | .baseTime name => name
  | .fixedZman name => name
  | .solar degrees direction =>
      "solar(" ++ degrees.formulaText ++ ", " ++ direction.token ++ ")"
  | .offset base side minutes =>
      base ++ " " ++ side.sign.toString ++ " " ++ Nat.repr minutes.toNat ++ "min"
  | .proportional hours day =>
      "proportional_hours(" ++ hours.formulaText ++ ", " ++ day.text ++ ")"

end Zmanim
