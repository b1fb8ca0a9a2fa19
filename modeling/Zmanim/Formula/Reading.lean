import Zmanim.Formula.Form
import Zmanim.Rejection
/-! Reading formula text. -/

namespace Zmanim
open Text

/-- A stop is reported with the part that was expected there. -/
def Rejection.atStop (diagnosis : Diagnosis) (source : List Char) (stop : Stop) : Rejection :=
  let position := Position.start.after (source.take (source.length - stop.left.length))
  let details := match stop.expected with
    | some expectation =>
        diagnosis.details ++ "; expected " ++ expectation.label ++ " at column "
          ++ Nat.repr position.column
    | none => diagnosis.details
  advancedAt diagnosis.reason details source (Span.point position)

/-- The rejection of a trimmed text that no form takes, from the furthest stop of the forms. Only an
unknown syntax is rejected at the stop; without a token to blame or a stop there is no place. -/
def Rejection.classified (source : List Char) (furthest : Option Stop) : Rejection :=
  let diagnosis := Diagnosis.ofText source
  match diagnosis.span, furthest with
  | some span, _ => advancedAt diagnosis.reason diagnosis.details source span
  | none, some stop =>
      if diagnosis.reason = .unknownSyntax then atStop diagnosis source stop
      else advanced diagnosis.reason diagnosis.details
  | none, none => advanced diagnosis.reason diagnosis.details

/-- The rejection of a trimmed text that is not blank. -/
def Rejection.ofTrimmed (source : List Char) : Rejection :=
  classified source (Form.furthestStop? Form.all source)

/-- The formula of a text. -/
def Formula.read (text : String) : Except Rejection Formula :=
  match trim text.toList with
  | [] => .error .empty
  | first :: rest =>
      match Formula.ofTrimmed? (first :: rest) with
      | some formula => .ok formula
      | none => .error (Rejection.ofTrimmed (first :: rest))

end Zmanim
