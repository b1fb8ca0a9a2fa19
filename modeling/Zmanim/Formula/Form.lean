import Zmanim.Formula.Basic
import Zmanim.Formula.Reader
/-! The forms of formula text. -/

namespace Zmanim

/-- The forms of formula text. -/
inductive Form where
  | solar
  | proportional
  | offset
  | fixedZman
deriving DecidableEq, Repr

namespace Form
open Reader

/-- The order in which forms are tried. -/
def all : List Form := [.solar, .proportional, .offset, .fixedZman]

theorem mem_all (form : Form) : form ∈ all := by
  cases form <;> decide

def opening : Reader Unit := expecting .openingBracket (spaced (character '('))

def separator : Reader Unit := expecting .comma (spaced (character ','))

def closing : Reader Unit := expecting .closingBracket (spaced (character ')'))

/-- An angle of the sun and the event that it is measured from. -/
def solarReader : Reader Formula := do
  spaced (word "solar")
  opening
  let degrees ← expecting .angle (spaced number)
  separator
  let direction ← expecting .direction (spaced direction)
  closing
  return .solar degrees direction

/-- A custom day with both endpoints. -/
def customDay : Reader Day := do
  spaced (word "custom")
  opening
  let start ← expecting .customStart (spaced reference)
  separator
  let finish ← expecting .customEnd (spaced reference)
  closing
  return .custom (some start) (some finish)

/-- A number of proportional hours and the day that they divide. -/
def proportionalReader : Reader Formula := do
  spaced (word "proportional_hours")
  opening
  let hours ← expecting .hours (spaced number)
  separator
  let day ← expecting .day (either customDay (spaced standardDay))
  closing
  return .proportional hours day

/-- A named time and the minutes before or after it. -/
def offsetReader : Reader Formula := do
  let base ← spaced zman
  let side ← spaced sign
  let minutes ← expecting .minutes minutes
  expecting .minuteUnit (literal ['m', 'i', 'n'])
  return .offset base side minutes

/-- A named time by itself. -/
def fixedZmanReader : Reader Formula := do
  let name ← spaced zman
  return .fixedZman name

/-- The reader of a form. -/
def reader : Form → Reader Formula
  | .solar => solarReader
  | .proportional => proportionalReader
  | .offset => offsetReader
  | .fixedZman => fixedZmanReader

/-- The formula of a text that a form takes whole. -/
def read? (form : Form) (text : List Char) : Option Formula :=
  (form.reader.whole text).toOption

end Form

theorem Form.read?_eq_some_iff {form : Form} {text : List Char} {formula : Formula} :
    form.read? text = some formula ↔ form.reader text = .ok (formula, []) := by
  rw [← Reader.whole_eq_ok_iff]
  unfold read?
  cases form.reader.whole text <;> simp [Except.toOption]

/-- The note of the furthest place has the least text left; of notes at one place the last counts. -/
def Note.deepest? : List Note → Option Note
  | [] => none
  | note :: notes =>
      match deepest? notes with
      | some best => if note.left.length < best.left.length then some note else some best
      | none => some note

/-- The part that a note names. -/
def Note.part? (note : Note) : Option Expectation :=
  match note.cause with
  | .within part => some part
  | _ => none

/-- The character that a note misses. -/
def Note.character? (note : Note) : Option Expectation :=
  match note.cause with
  | .missing character => some (.character character)
  | _ => none

/-- The text before which a reading stopped, and what it expected there. -/
structure Stop where
  left : List Char
  expected : Option Expectation
deriving DecidableEq, Repr

/-- The stop that notes tell of, if there are any. The innermost part that is named was expected, or
else a character that is missing at the stop. -/
def Stop.ofNotes? (notes : List Note) : Option Stop :=
  (Note.deepest? notes).map fun deepest =>
    ⟨deepest.left, (notes.findSome? Note.part?).or deepest.character?⟩

/-- The later of two stops has less text left; the first counts when both are equally far. -/
def Stop.further (best next : Stop) : Stop :=
  if next.left.length < best.left.length then next else best

/-- The furthest of some stops. -/
def Stop.furthest? : List Stop → Option Stop
  | [] => none
  | first :: others => some (others.foldl Stop.further first)

/-- The stop of a form that does not take a text whole. -/
def Form.stop? (form : Form) (text : List Char) : Option Stop :=
  match form.reader.whole text with
  | .ok _ => none
  | .error notes => Stop.ofNotes? notes

/-- The furthest stop of the forms, if any of them stopped. -/
def Form.furthestStop? (forms : List Form) (text : List Char) : Option Stop :=
  Stop.furthest? (forms.filterMap fun form => form.stop? text)

/-- The formula of a trimmed text. -/
def Formula.ofTrimmed? (text : List Char) : Option Formula :=
  Form.all.findSome? fun form => form.read? text

end Zmanim
