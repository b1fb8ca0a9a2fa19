import Zmanim.Editor.Basic
import Zmanim.Number.Range
import Zmanim.Number.Shortest
import Zmanim.Text.Name
/-! Problems of an editor. -/

namespace Zmanim

/-- The solar angles, in degrees, that cause no problem. -/
def solarDegreesRange : NumberRange := ⟨0, 90⟩

/-- The proportional hours that cause no problem. -/
def proportionalHoursRange : NumberRange := ⟨0.5, 12⟩

/-- The inputs that hold a name. -/
inductive NameInput where
  | baseTime
  | fixedZman
  | offsetBase
  | customStart
  | customEnd
deriving DecidableEq, Repr

/-- The label of an input that holds a name. -/
def NameInput.label : NameInput → String
  | .baseTime => "Base time"
  | .fixedZman => "Zman"
  | .offsetBase => "Offset base"
  | .customStart => "Custom start"
  | .customEnd => "Custom end"

/-- A name is missing or no identifier, or a number is out of its range. -/
inductive Problem where
  | missing (input : NameInput)
  | notIdentifier (input : NameInput) (name : String)
  | solarDegrees
  | proportionalHours
deriving DecidableEq, Repr

/-- The message for a problem. -/
def Problem.message : Problem → String
  | .missing .baseTime => "Select a calculation method"
  | .missing .fixedZman => "Select a zman"
  | .missing .offsetBase => "Select a base time for the offset"
  | .missing .customStart => "Custom base requires a start time"
  | .missing .customEnd => "Custom base requires an end time"
  | .notIdentifier input name => input.label ++ " '" ++ name ++ "' is not a valid identifier"
  | .solarDegrees =>
      "Solar angle must be between " ++ solarDegreesRange.low.text ++ " and "
        ++ solarDegreesRange.high.text ++ " degrees"
  | .proportionalHours =>
      "Proportional hours must be between " ++ proportionalHoursRange.low.text ++ " and "
        ++ proportionalHoursRange.high.text

/-- The problem of a name, if it has one. -/
def NameInput.problems (input : NameInput) (name : String) : List Problem :=
  if name.isEmpty then [.missing input]
  else if Text.isIdentifier name then []
  else [.notIdentifier input name]

/-- The problem of a number, if it is out of range. -/
def NumberRange.problems (range : NumberRange) (problem : Problem) (number : Double) :
    List Problem :=
  if range.contains number then [] else [problem]

namespace Editor

/-- The problems of the inputs that the chosen method reads, in the order of the inputs. -/
def problems (editor : Editor) : List Problem :=
  match editor.method with
  | none => NameInput.baseTime.problems editor.baseTime
  | some .fixedZman => NameInput.fixedZman.problems editor.fixedZman
  | some .solar => solarDegreesRange.problems .solarDegrees editor.solarDegrees
  | some .fixedOffset => NameInput.offsetBase.problems editor.offsetBase
  | some .proportional =>
      proportionalHoursRange.problems .proportionalHours editor.hours
        ++ match editor.day with
          | .standard _ => []
          | .custom =>
              NameInput.customStart.problems (editor.customStart.getD "")
                ++ NameInput.customEnd.problems (editor.customEnd.getD "")

end Editor

end Zmanim
