import Zmanim.Vocabulary.Word
/-! Directions of the sun and sides of an offset. -/

namespace Zmanim

/-- The event from which a solar angle is measured, and the side of it. -/
inductive SolarDirection where
  | beforeVisibleSunrise
  | afterVisibleSunset
  | beforeNoon
  | afterNoon
deriving DecidableEq, Repr

namespace SolarDirection

def all : List SolarDirection :=
  [.beforeVisibleSunrise, .afterVisibleSunset, .beforeNoon, .afterNoon]

theorem mem_all (direction : SolarDirection) : direction ∈ all := by
  cases direction <;> decide

/-- The word for a direction in formula text. -/
def token : SolarDirection → String
  | .beforeVisibleSunrise => "before_visible_sunrise"
  | .afterVisibleSunset => "after_visible_sunset"
  | .beforeNoon => "before_noon"
  | .afterNoon => "after_noon"

def ofToken (word : String) : Except UnknownWord SolarDirection :=
  Vocabulary.direction.find all token word

end SolarDirection

/-- The side of its base on which an offset lands. -/
inductive OffsetSide where
  | before
  | after
deriving DecidableEq, Repr

namespace OffsetSide

def all : List OffsetSide := [.before, .after]

theorem mem_all (side : OffsetSide) : side ∈ all := by
  cases side <;> decide

/-- The word for a side in the wire form. -/
def token : OffsetSide → String
  | .before => "before"
  | .after => "after"

/-- The sign between the base and the minutes. -/
def sign : OffsetSide → Char
  | .before => '-'
  | .after => '+'

/-- The side that a sign stands for. -/
def ofSign? : Char → Option OffsetSide
  | '-' => some .before
  | '+' => some .after
  | _ => none

@[simp] theorem ofSign?_sign (side : OffsetSide) : ofSign? side.sign = some side := by
  cases side <;> rfl

theorem sign_of_ofSign? {character : Char} {side : OffsetSide}
    (found : ofSign? character = some side) : side.sign = character := by
  unfold ofSign? at found
  split at found <;> first | cases found; rfl | simp at found

end OffsetSide

end Zmanim
