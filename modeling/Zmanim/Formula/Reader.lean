import Zmanim.Number.Double
import Zmanim.Text.Blank
import Zmanim.Text.Name
import Zmanim.Vocabulary.Day
import Zmanim.Vocabulary.Direction
/-! Readers for the parts of a formula. -/

namespace Zmanim
open Text

/-- What a stop can name as expected: a part of a formula or a single character. -/
inductive Expectation where
  | openingBracket
  | comma
  | closingBracket
  | angle
  | direction
  | hours
  | day
  | customStart
  | customEnd
  | minutes
  | minuteUnit
  | character (expected : Char)
deriving DecidableEq, Repr

/-- The words for what is expected. -/
def Expectation.label : Expectation → String
  | .openingBracket => "'('"
  | .comma => "','"
  | .closingBracket => "')'"
  | .angle => "solar angle"
  | .direction => "solar direction"
  | .hours => "hour count"
  | .day => "proportional base"
  | .customStart => "custom start reference"
  | .customEnd => "custom end reference"
  | .minutes => "offset minutes"
  | .minuteUnit => "'min'"
  | .character expected => "'" ++ expected.toString ++ "'"

/-- What went wrong at a place. -/
inductive Cause where
  /-- Nothing there could be taken. -/
  | refused
  /-- A single character was not there. -/
  | missing (character : Char)
  /-- A named part that begins there failed. -/
  | within (part : Expectation)
deriving DecidableEq, Repr

/-- A note of a failure: the text left at a place, and what went wrong there. -/
structure Note where
  left : List Char
  cause : Cause
deriving DecidableEq, Repr

/-- A reader takes a value from the front of a text, or fails with notes, the innermost first. -/
abbrev Reader (Value : Type) := StateT (List Char) (Except (List Note)) Value

namespace Reader

variable {Value : Type}

@[simp] theorem pure_apply (value : Value) (text : List Char) :
    (pure value : Reader Value) text = .ok (value, text) := rfl

@[simp] theorem bind_apply {Next : Type} (reader : Reader Value) (next : Value → Reader Next)
    (text : List Char) :
    (reader >>= next) text =
      match reader text with
      | .ok (value, left) => next value left
      | .error notes => .error notes := by
  change (reader text >>= fun result => next result.1 result.2) = _
  cases reader text <;> rfl

/-- A scan takes a whole part, or fails before it for a single cause. -/
def ofScan (cause : Cause) (scan : List Char → Option (Value × List Char)) : Reader Value :=
  fun text =>
    match scan text with
    | some (value, left) => .ok (value, left)
    | none => .error [⟨text, cause⟩]

/-- Gap characters are skipped, however many there are. -/
def gap : Reader Unit := fun text => .ok ((), text.dropWhile isGap)

/-- A part may stand between gaps. -/
def spaced (reader : Reader Value) : Reader Value := do
  gap
  let value ← reader
  gap
  return value

@[simp] theorem spaced_apply (reader : Reader Value) (text : List Char) :
    spaced reader text =
      match reader (text.dropWhile isGap) with
      | .ok (value, left) => .ok (value, left.dropWhile isGap)
      | .error notes => .error notes := by
  simp only [spaced, bind_apply, gap, pure_apply]

/-- A failure inside a part is noted with the name of the part. -/
def expecting (part : Expectation) (reader : Reader Value) : Reader Value := fun text =>
  match reader text with
  | .ok result => .ok result
  | .error notes => .error (notes ++ [⟨text, .within part⟩])

/-- The second reader is tried when the first fails, and then the notes of the first are lost. -/
def either (first second : Reader Value) : Reader Value := fun text =>
  match first text with
  | .ok result => .ok result
  | .error _ =>
      match second text with
      | .ok result => .ok result
      | .error notes => .error (notes ++ [⟨text, .refused⟩])

/-- The value of a whole text; text left over is a failure. -/
def whole (reader : Reader Value) (text : List Char) : Except (List Note) Value :=
  match reader text with
  | .ok (value, []) => .ok value
  | .ok (_, left) => .error [⟨left, .refused⟩]
  | .error notes => .error notes

theorem whole_eq_ok_iff {reader : Reader Value} {text : List Char} {value : Value} :
    reader.whole text = .ok value ↔ reader text = .ok (value, []) := by
  unfold whole
  split <;> simp_all

/-- A single character. -/
def character (expected : Char) : Reader Unit := ofScan (.missing expected) fun
  | [] => none
  | first :: rest => if first = expected then some ((), rest) else none

/-- Exactly these characters. -/
def literal (expected : List Char) : Reader Unit := ofScan .refused fun text =>
  (expected.isPrefixOf? text).map fun left => ((), left)

/-- An identifier is as long as possible and no keyword. -/
def identifier : Reader String := ofScan .refused scanIdentifier

/-- An identifier that has a meaning. -/
def meaning (find : String → Option Value) : Reader Value := ofScan .refused fun text =>
  match scanIdentifier text with
  | some (name, left) => (find name).map fun value => (value, left)
  | none => none

/-- An identifier that is exactly this word. -/
def word (expected : String) : Reader Unit :=
  meaning fun name => if name = expected then some () else none

/-- A reference is an identifier after an at sign. -/
def reference : Reader String := do
  character '@'
  identifier

/-- The name of a time may be written as a reference. -/
def zman : Reader String := fun
  | '@' :: rest => identifier rest
  | text => identifier text

/-- An unsigned number. -/
def number : Reader Double := ofScan .refused fun text =>
  (Numeral.scan text).map fun (numeral, left) => (Double.ofDecimal numeral.value, left)

/-- The sign between a base and its offset. -/
def sign : Reader OffsetSide := ofScan .refused fun
  | [] => none
  | first :: rest => (OffsetSide.ofSign? first).map fun side => (side, rest)

/-- A whole number of minutes below 2³². -/
def minutes : Reader UInt32 := ofScan .refused fun text =>
  let digits := text.takeWhile Char.isDigit
  let count := Nat.ofDigitChars 10 digits 0
  if digits ≠ [] ∧ count < UInt32.size then
    some (UInt32.ofNat count, text.dropWhile Char.isDigit)
  else none

/-- The word for a direction. -/
def direction : Reader SolarDirection := meaning fun name => (SolarDirection.ofToken name).toOption

/-- The word for a standard day. -/
def standardDay : Reader Day := meaning fun name =>
  match DayKind.ofToken name with
  | .ok (.standard day) => some (.standard day)
  | _ => none

end Reader

end Zmanim
