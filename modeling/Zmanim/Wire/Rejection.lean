import Zmanim.Rejection
import Zmanim.Wire.Json
/-! The wire form of spans, reasons and rejections. -/

namespace Zmanim

/-- A span is read from four counts of at most 64 bits. -/
def Text.Span.ofJson? (json : Json) : Option Text.Span := do
  let start ← json.required "start" Json.count?
  let stop ← json.required "end" Json.count?
  let line ← json.required "line" Json.count?
  let column ← json.required "column" Json.count?
  return ⟨start, stop, line, column⟩

def Text.Span.members (span : Text.Span) : List (String × Json) :=
  [("start", .ofNat span.start),
    ("end", .ofNat span.stop),
    ("line", .ofNat span.line),
    ("column", .ofNat span.column)]

def Reason.ofJson? : Json → Option Reason := Json.word? Reason.all Reason.code

namespace Rejection

def members (rejection : Rejection) : List (String × Json) :=
  [("error", .string rejection.message),
    ("complexityReason", Json.ofOption (fun reason => .string reason.code) rejection.reason),
    ("complexityDetails", Json.ofOption .string rejection.details),
    ("line", .ofNat rejection.line),
    ("column", .ofNat rejection.column),
    ("snippet", .string rejection.snippet),
    ("pointer", .string rejection.pointer)]

def ofJson? (json : Json) : Option Rejection := do
  let message ← json.required "error" Json.string?
  let reason ← json.optional "complexityReason" Reason.ofJson?
  let details ← json.optional "complexityDetails" Json.string?
  let line ← json.required "line" Json.count?
  let column ← json.required "column" Json.count?
  let snippet ← json.required "snippet" Json.string?
  let pointer ← json.required "pointer" Json.string?
  return ⟨message, reason, details, line, column, snippet, pointer⟩

end Rejection

end Zmanim
