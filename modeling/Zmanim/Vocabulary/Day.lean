import Zmanim.Vocabulary.Word
/-! Kinds of day that proportional hours divide. -/

namespace Zmanim

/-- A standard day has fixed bounds. -/
inductive StandardDay where
  | gra
  | mga
  | mga90
  | baalHatanya
deriving DecidableEq, Repr

namespace StandardDay

def all : List StandardDay := [.gra, .mga, .mga90, .baalHatanya]

theorem mem_all (day : StandardDay) : day ∈ all := by
  cases day <;> decide

/-- The word for a standard day in formula text. -/
def token : StandardDay → String
  | .gra => "gra"
  | .mga => "mga"
  | .mga90 => "mga_90"
  | .baalHatanya => "baal_hatanya"

/-- When a standard day starts and ends. -/
def bounds : StandardDay → String × String
  | .gra => ("Visible sunrise", "Visible sunset")
  | .mga => ("72 minutes before visible sunrise", "72 minutes after visible sunset")
  | .mga90 => ("90 minutes before visible sunrise", "90 minutes after visible sunset")
  | .baalHatanya =>
      ("Sun at 1.583° below the horizon (netz amiti)",
        "Sun at 1.583° below the horizon (shkiah amiti)")

end StandardDay

/-- A kind of day is standard, or custom with bounds of its own. -/
inductive DayKind where
  | standard (day : StandardDay)
  | custom
deriving DecidableEq, Repr

namespace DayKind

def all : List DayKind := StandardDay.all.map .standard ++ [.custom]

theorem mem_all (kind : DayKind) : kind ∈ all := by
  cases kind with
  | standard day => simp [all, StandardDay.mem_all]
  | custom => simp [all]

/-- The word for a kind of day in formula text. -/
def token : DayKind → String
  | .standard day => day.token
  | .custom => "custom"

def ofToken (word : String) : Except UnknownWord DayKind :=
  Vocabulary.base.find all token word

/-- A custom day has no bounds until its endpoints are chosen. -/
def bounds? : DayKind → Option (String × String)
  | .standard day => some day.bounds
  | .custom => none

end DayKind

/-- A day as a formula holds it; a custom day may still lack an endpoint. -/
inductive Day where
  | standard (day : StandardDay)
  | custom (start finish : Option String)
deriving DecidableEq, Repr

namespace Day

/-- The kind of a day forgets custom endpoints. -/
def kind : Day → DayKind
  | .standard day => .standard day
  | .custom _ _ => .custom

/-- The day of a kind has no custom endpoints. -/
def ofKind : DayKind → Day
  | .standard day => .standard day
  | .custom => .custom none none

@[simp] theorem kind_ofKind (kind : DayKind) : (ofKind kind).kind = kind := by
  cases kind <;> rfl

end Day

end Zmanim
