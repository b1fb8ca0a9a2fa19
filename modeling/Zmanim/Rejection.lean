import Zmanim.Diagnosis
import Zmanim.Text.Lines
/-! Rejections. -/

namespace Zmanim
open Text

/-- The explanation of why a text was rejected; line and column are zero when there is no place. -/
structure Rejection where
  message : String
  reason : Option Reason
  details : Option String
  line : Nat
  column : Nat
  snippet : String
  pointer : String
deriving DecidableEq, Repr

namespace Rejection

/-- A text without any character that is not blank. -/
def empty : Rejection := ⟨"Formula is empty", none, none, 0, 0, "", ""⟩

/-- A text that is no formula, at no place in particular. -/
def advanced (reason : Reason) (details : String) : Rejection :=
  ⟨"Advanced formula detected: " ++ reason.label, some reason, some details, 0, 0, "", ""⟩

/-- The columns before the carets never pass the end of the line. -/
def indent (span : Span) (width : Nat) : Nat := min (span.column - 1) width

/-- There is one caret at least, and otherwise as many as the span has bytes and the line has room
for. -/
def carets (span : Span) (width : Nat) : Nat :=
  min (max span.length 1) (max (width - indent span width) 1)

/-- The row of carets under a line of some width. -/
def pointerRow (span : Span) (width : Nat) : List Char :=
  List.replicate (indent span width) ' ' ++ List.replicate (carets span width) '^'

/-- A text that is no formula, with the excerpt at a span of it. -/
def advancedAt (reason : Reason) (details : String) (source : List Char) (span : Span) :
    Rejection :=
  let snippet := lineAt source span.line
  { advanced reason details with
    line := span.line
    column := span.column
    snippet := String.ofList snippet
    pointer := String.ofList (pointerRow span snippet.length) }

section

variable {reason : Reason} {details : String} {source : List Char} {span : Span}

@[simp] theorem line_advancedAt : (advancedAt reason details source span).line = span.line := rfl

@[simp] theorem column_advancedAt :
    (advancedAt reason details source span).column = span.column := rfl

@[simp] theorem snippet_advancedAt :
    (advancedAt reason details source span).snippet = String.ofList (lineAt source span.line) := rfl

@[simp] theorem pointer_advancedAt :
    (advancedAt reason details source span).pointer =
      String.ofList (pointerRow span (lineAt source span.line).length) := rfl

end

/-- Only a blank text is rejected without a reason. -/
def isAdvanced (rejection : Rejection) : Bool := rejection.reason.isSome

/-- The message with its details. -/
def headline (rejection : Rejection) : String :=
  match rejection.details with
  | some details => rejection.message ++ ": " ++ details
  | none => rejection.message

/-- The excerpt has the number of its line in a margin of three columns. -/
def excerpt (rejection : Rejection) : String :=
  let number := Nat.repr rejection.line
  "\n --> line " ++ number ++ ", column " ++ Nat.repr rejection.column ++ "\n  |\n"
    ++ String.ofList (number.toList.leftpad 3 ' ') ++ " | " ++ rejection.snippet
    ++ "\n  | " ++ rejection.pointer

/-- A rejection is shown with its excerpt when it has a place. -/
def display (rejection : Rejection) : String :=
  if rejection.line = 0 ∨ rejection.column = 0 then rejection.headline
  else rejection.headline ++ rejection.excerpt

end Rejection

end Zmanim
