import Zmanim.Editor.Basic
/-! Edits of an editor. -/

namespace Zmanim

/-- A new value for one input. -/
inductive Edit where
  | method (value : Option Method)
  | baseTime (value : String)
  | fixedZman (value : String)
  | solarDegrees (value : Double)
  | solarDirection (value : SolarDirection)
  | offsetBase (value : String)
  | offsetSide (value : OffsetSide)
  | offsetMinutes (value : UInt32)
  | hours (value : Double)
  | day (value : DayKind)
  | customStart (value : Option String)
  | customEnd (value : Option String)
deriving DecidableEq

/-- The editor after an edit. -/
def Editor.apply (editor : Editor) : Edit → Editor
  | .method value => { editor with method := value }
  | .baseTime value => { editor with baseTime := value }
  | .fixedZman value => { editor with fixedZman := value }
  | .solarDegrees value => { editor with solarDegrees := value }
  | .solarDirection value => { editor with solarDirection := value }
  | .offsetBase value => { editor with offsetBase := value }
  | .offsetSide value => { editor with offsetSide := value }
  | .offsetMinutes value => { editor with offsetMinutes := value }
  | .hours value => { editor with hours := value }
  | .day value => { editor with day := value }
  | .customStart value => { editor with customStart := value }
  | .customEnd value => { editor with customEnd := value }

/-- The editor after a run of edits. -/
def Editor.applyAll (editor : Editor) (edits : List Edit) : Editor :=
  edits.foldl Editor.apply editor

@[simp] theorem Editor.applyAll_nil (editor : Editor) : editor.applyAll [] = editor := rfl

@[simp] theorem Editor.applyAll_cons (editor : Editor) (edit : Edit) (edits : List Edit) :
    editor.applyAll (edit :: edits) = (editor.apply edit).applyAll edits := rfl

end Zmanim
