import Zmanim.Vocabulary.Word
/-! Reference points. -/

namespace Zmanim

/-- The astronomical events that can stand as a fixed time or as the base of an offset. -/
inductive ReferencePoint where
  | visibleSunrise
  | visibleSunset
  | geometricSunrise
  | geometricSunset
  | solarNoon
  | solarMidnight
  | civilDawn
  | civilDusk
  | nauticalDawn
  | nauticalDusk
  | astronomicalDawn
  | astronomicalDusk
deriving DecidableEq, Repr

namespace ReferencePoint

def all : List ReferencePoint :=
  [.visibleSunrise, .visibleSunset, .geometricSunrise, .geometricSunset, .solarNoon,
    .solarMidnight, .civilDawn, .civilDusk, .nauticalDawn, .nauticalDusk, .astronomicalDawn,
    .astronomicalDusk]

/-- The word for a reference point in formula text. -/
def token : ReferencePoint → String
  | .visibleSunrise => "visible_sunrise"
  | .visibleSunset => "visible_sunset"
  | .geometricSunrise => "geometric_sunrise"
  | .geometricSunset => "geometric_sunset"
  | .solarNoon => "solar_noon"
  | .solarMidnight => "solar_midnight"
  | .civilDawn => "civil_dawn"
  | .civilDusk => "civil_dusk"
  | .nauticalDawn => "nautical_dawn"
  | .nauticalDusk => "nautical_dusk"
  | .astronomicalDawn => "astronomical_dawn"
  | .astronomicalDusk => "astronomical_dusk"

def ofToken (word : String) : Except UnknownWord ReferencePoint :=
  Vocabulary.referencePoint.find all token word

/-- The position of the sun that defines a reference point. -/
def definition : ReferencePoint → String
  | .visibleSunrise => "Upper limb of the sun appears above the horizon, including refraction."
  | .visibleSunset => "Upper limb of the sun disappears below the horizon, including refraction."
  | .geometricSunrise => "Center of the sun crosses the geometric horizon in the morning."
  | .geometricSunset => "Center of the sun crosses the geometric horizon in the evening."
  | .solarNoon => "Sun crosses the local meridian."
  | .solarMidnight => "Sun is at its lowest point, opposite solar noon."
  | .civilDawn => "Sun is 6° below the horizon in the morning."
  | .civilDusk => "Sun is 6° below the horizon in the evening."
  | .nauticalDawn => "Sun is 12° below the horizon in the morning."
  | .nauticalDusk => "Sun is 12° below the horizon in the evening."
  | .astronomicalDawn => "Sun is 18° below the horizon in the morning."
  | .astronomicalDusk => "Sun is 18° below the horizon in the evening."

end ReferencePoint

end Zmanim
