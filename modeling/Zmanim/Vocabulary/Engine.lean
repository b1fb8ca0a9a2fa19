/-! The words that the calculation engine understands. -/

namespace Zmanim

/-- The functions that a formula can call. -/
def formulaFunctions : List String := ["solar", "proportional_hours", "custom"]

namespace Engine

/-- The functions that the engine can call. -/
def functions : List String :=
  ["solar", "seasonal_solar", "proportional_hours", "proportional_minutes", "midpoint",
    "first_valid", "earlier_of", "later_of"]

/-- The directions from which the engine measures an angle. -/
def directions : List String :=
  ["before_visible_sunrise", "after_visible_sunrise", "before_visible_sunset",
    "after_visible_sunset", "before_geometric_sunrise", "after_geometric_sunrise",
    "before_geometric_sunset", "after_geometric_sunset", "before_noon", "after_noon"]

/-- The definitions of the day that the engine knows. -/
def bases : List String :=
  ["gra", "mga", "mga_60", "mga_72", "mga_90", "mga_96", "mga_120", "mga_72_zmanis",
    "mga_90_zmanis", "mga_96_zmanis", "mga_16_1", "mga_18", "mga_19_8", "mga_26", "baal_hatanya",
    "ateret_torah", "custom"]

end Engine

end Zmanim
