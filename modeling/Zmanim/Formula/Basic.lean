import Zmanim.Number.Double
import Zmanim.Vocabulary.Day
import Zmanim.Vocabulary.Direction
/-! Formulas. -/

namespace Zmanim

/-- A time of day, or how to compute it. -/
inductive Formula where
  /-- The name that stands while no method is chosen. -/
  | baseTime (name : String)
  /-- A named time as it is. -/
  | fixedZman (name : String)
  /-- The time when the sun stands at an angle. -/
  | solar (degrees : Double) (direction : SolarDirection)
  /-- A whole number of minutes before or after a named time. -/
  | offset (base : String) (side : OffsetSide) (minutes : UInt32)
  /-- A number of proportional hours into a day. -/
  | proportional (hours : Double) (day : Day)
deriving DecidableEq

namespace Formula

/-- Agreement compares numbers as numbers, so that the two zeros agree. -/
def agrees : Formula → Formula → Bool
  | .solar degrees direction, .solar otherDegrees otherDirection =>
      degrees.sameNumber otherDegrees && direction == otherDirection
  | .proportional hours day, .proportional otherHours otherDay =>
      hours.sameNumber otherHours && day == otherDay
  | first, second => first == second

end Formula

end Zmanim
