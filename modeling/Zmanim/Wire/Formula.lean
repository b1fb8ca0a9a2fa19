import Zmanim.Formula.Basic
import Zmanim.Wire.Json
/-! The wire form of formulas. -/

namespace Zmanim

namespace Day

def toJson : Day → Json
  | .standard day => .object [("base", .string day.token)]
  | .custom start finish =>
      .object
        [("base", .string DayKind.custom.token),
          ("start", Json.ofOption .string start),
          ("end", Json.ofOption .string finish)]

def ofJson? (json : Json) : Option Day := do
  match ← json.required "base" (Json.word? DayKind.all DayKind.token) with
  | .standard day => return .standard day
  | .custom =>
      let start ← json.optional "start" Json.string?
      let finish ← json.optional "end" Json.string?
      return .custom start finish

end Day

namespace Formula

/-- An object that is tagged with the method. The writer of numbers is a parameter, because numbers
that JSON cannot hold are sometimes written as text. -/
def toJson (number : Double → Json) : Formula → Json
  | .baseTime name => .object [("method", .string "base_time"), ("name", .string name)]
  | .fixedZman name => .object [("method", .string "fixed_zman"), ("name", .string name)]
  | .solar degrees direction =>
      .object
        [("method", .string "solar"),
          ("degrees", number degrees),
          ("direction", .string direction.token)]
  | .offset base side minutes =>
      .object
        [("method", .string "fixed_offset"),
          ("base", .string base),
          ("direction", .string side.token),
          ("minutes", .ofNat minutes.toNat)]
  | .proportional hours day =>
      .object
        [("method", .string "proportional"), ("hours", number hours), ("base", day.toJson)]

def ofJson? (json : Json) : Option Formula := do
  match ← json.required "method" Json.string? with
  | "base_time" => return .baseTime (← json.required "name" Json.string?)
  | "fixed_zman" => return .fixedZman (← json.required "name" Json.string?)
  | "solar" =>
      let degrees ← json.required "degrees" Json.double?
      let direction ←
        json.required "direction" (Json.word? SolarDirection.all SolarDirection.token)
      return .solar degrees direction
  | "fixed_offset" =>
      let base ← json.required "base" Json.string?
      let side ← json.required "direction" (Json.word? OffsetSide.all OffsetSide.token)
      let minutes ← json.required "minutes" (Json.below? UInt32.size)
      return .offset base side (UInt32.ofNat minutes)
  | "proportional" =>
      let hours ← json.required "hours" Json.double?
      let day ← json.required "base" Day.ofJson?
      return .proportional hours day
  | _ => none

end Formula

end Zmanim
