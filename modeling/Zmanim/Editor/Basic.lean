import Zmanim.Formula.Basic
import Zmanim.Vocabulary.ReferencePoint
/-! Editors. -/

namespace Zmanim

/-- The methods that an editor offers. -/
inductive Method where
  | fixedZman
  | solar
  | fixedOffset
  | proportional
deriving DecidableEq, Repr

namespace Method

def all : List Method := [.fixedZman, .solar, .fixedOffset, .proportional]

theorem mem_all (method : Method) : method ∈ all := by
  cases method <;> decide

/-- The word for a method in the wire form. -/
def token : Method → String
  | .fixedZman => "fixed_zman"
  | .solar => "solar"
  | .fixedOffset => "fixed_offset"
  | .proportional => "proportional"

end Method

/-- The inputs of all methods and the method that is chosen. Choosing another method forgets none of
them. -/
structure Editor where
  method : Option Method
  baseTime : String
  fixedZman : String
  solarDegrees : Double
  solarDirection : SolarDirection
  offsetBase : String
  offsetSide : OffsetSide
  offsetMinutes : UInt32
  hours : Double
  day : DayKind
  customStart : Option String
  customEnd : Option String
deriving DecidableEq

namespace Editor

/-- An editor starts without a method and with an input for every method that needs one. -/
def initial : Editor where
  method := none
  baseTime := ReferencePoint.visibleSunrise.token
  fixedZman := ReferencePoint.visibleSunrise.token
  solarDegrees := 16.1
  solarDirection := .beforeVisibleSunrise
  offsetBase := ReferencePoint.visibleSunrise.token
  offsetSide := .before
  offsetMinutes := 72
  hours := 3
  day := .standard .gra
  customStart := none
  customEnd := none

/-- The day that the inputs describe. -/
def proportionalDay (editor : Editor) : Day :=
  match editor.day with
  | .standard day => .standard day
  | .custom => .custom editor.customStart editor.customEnd

/-- The formula of the chosen method and its inputs. -/
def formula (editor : Editor) : Formula :=
  match editor.method with
  | none => .baseTime editor.baseTime
  | some .fixedZman => .fixedZman editor.fixedZman
  | some .solar => .solar editor.solarDegrees editor.solarDirection
  | some .fixedOffset => .offset editor.offsetBase editor.offsetSide editor.offsetMinutes
  | some .proportional => .proportional editor.hours editor.proportionalDay

/-- The editor of a formula keeps the initial inputs of all other methods. -/
def ofFormula : Formula → Editor
  | .baseTime name => { initial with method := none, baseTime := name }
  | .fixedZman name => { initial with method := some .fixedZman, fixedZman := name }
  | .solar degrees direction =>
      { initial with
        method := some .solar
        solarDegrees := degrees
        solarDirection := direction }
  | .offset base side minutes =>
      { initial with
        method := some .fixedOffset
        offsetBase := base
        offsetSide := side
        offsetMinutes := minutes }
  | .proportional hours (.standard day) =>
      { initial with method := some .proportional, hours := hours, day := .standard day }
  | .proportional hours (.custom start finish) =>
      { initial with
        method := some .proportional
        hours := hours
        day := .custom
        customStart := start
        customEnd := finish }

@[simp] theorem formula_ofFormula (formula : Formula) : (ofFormula formula).formula = formula := by
  cases formula with
  | proportional hours day => cases day <;> rfl
  | _ => rfl

end Editor

end Zmanim
