import Zmanim.Editor.Snapshot
import Zmanim.Wire.Json
/-! The wire form of editors, snapshots and edits. -/

namespace Zmanim

namespace Editor

/-- The members that hold the inputs. -/
def members (number : Double → Json) (editor : Editor) : List (String × Json) :=
  [("method", Json.ofOption (fun method => .string method.token) editor.method),
    ("baseTime", .string editor.baseTime),
    ("selectedFixedZman", .string editor.fixedZman),
    ("solarDegrees", number editor.solarDegrees),
    ("solarDirection", .string editor.solarDirection.token),
    ("offsetBase", .string editor.offsetBase),
    ("offsetDirection", .string editor.offsetSide.token),
    ("offsetMinutes", .ofNat editor.offsetMinutes.toNat),
    ("shaosHours", number editor.hours),
    ("shaosBase", .string editor.day.token),
    ("customStart", Json.ofOption .string editor.customStart),
    ("customEnd", Json.ofOption .string editor.customEnd)]

def ofJson? (json : Json) : Option Editor := do
  let method ← json.optional "method" (Json.word? Method.all Method.token)
  let baseTime ← json.required "baseTime" Json.string?
  let fixedZman ← json.required "selectedFixedZman" Json.string?
  let solarDegrees ← json.required "solarDegrees" Json.double?
  let solarDirection ←
    json.required "solarDirection" (Json.word? SolarDirection.all SolarDirection.token)
  let offsetBase ← json.required "offsetBase" Json.string?
  let offsetSide ← json.required "offsetDirection" (Json.word? OffsetSide.all OffsetSide.token)
  let offsetMinutes ← json.required "offsetMinutes" (Json.below? UInt32.size)
  let hours ← json.required "shaosHours" Json.double?
  let day ← json.required "shaosBase" (Json.word? DayKind.all DayKind.token)
  let customStart ← json.optional "customStart" Json.string?
  let customEnd ← json.optional "customEnd" Json.string?
  return {
    method, baseTime, fixedZman, solarDegrees, solarDirection, offsetBase, offsetSide,
    offsetMinutes := UInt32.ofNat offsetMinutes, hours, day, customStart, customEnd }

end Editor

namespace Snapshot

def toJson (number : Double → Json) (snapshot : Snapshot) : Json :=
  .object
    (snapshot.editor.members number ++
      [("isValid", .bool snapshot.isValid),
        ("validationErrors", Json.ofStrings (snapshot.problems.map Problem.message))])

/-- The outcome of a check is ignored, and the inputs are checked afresh. -/
def ofJson? (json : Json) : Option Snapshot :=
  (Editor.ofJson? json).map fun editor => (unchecked editor).revalidated

end Snapshot

namespace Edit

/-- An edit names its input and holds the new value; a missing value is null. -/
def ofJson? (json : Json) : Option Edit := do
  let value := (← json.optional "value" some).getD .null
  match ← json.required "field" Json.string? with
  | "method" => return .method (← value.optional? (Json.word? Method.all Method.token))
  | "baseTime" => return .baseTime (← value.string?)
  | "selectedFixedZman" => return .fixedZman (← value.string?)
  | "solarDegrees" => return .solarDegrees (← value.double?)
  | "solarDirection" =>
      return .solarDirection (← value.word? SolarDirection.all SolarDirection.token)
  | "offsetBase" => return .offsetBase (← value.string?)
  | "offsetDirection" => return .offsetSide (← value.word? OffsetSide.all OffsetSide.token)
  | "offsetMinutes" => return .offsetMinutes (UInt32.ofNat (← value.below? UInt32.size))
  | "shaosHours" => return .hours (← value.double?)
  | "shaosBase" => return .day (← value.word? DayKind.all DayKind.token)
  | "customStart" => return .customStart (← value.optional? Json.string?)
  | "customEnd" => return .customEnd (← value.optional? Json.string?)
  | _ => none

end Edit

end Zmanim
