import Zmanim.Token
import Zmanim.Vocabulary.Day
import Zmanim.Vocabulary.Engine
/-! Obstacles that keep a text from being a formula. -/

namespace Zmanim

/-- The kinds of reason why a text is no formula. -/
inductive Reason where
  | conditional
  | midpoint
  | chainedOperations
  | unknownFunction
  | unknownSyntax
deriving DecidableEq, Repr

namespace Reason

def all : List Reason :=
  [.conditional, .midpoint, .chainedOperations, .unknownFunction, .unknownSyntax]

/-- The code of a reason. -/
def code : Reason → String
  | .conditional => "conditional"
  | .midpoint => "midpoint"
  | .chainedOperations => "chained_operations"
  | .unknownFunction => "unknown_function"
  | .unknownSyntax => "unknown_syntax"

/-- The headline of a reason. -/
def label : Reason → String
  | .conditional => "Conditional logic"
  | .midpoint => "Midpoint calculation"
  | .chainedOperations => "Chained operations"
  | .unknownFunction => "Unsupported function"
  | .unknownSyntax => "Unsupported syntax"

end Reason

/-- A trait of a text that no formula has. -/
inductive Obstacle where
  /-- An `else`, or an `if` that opens a call. -/
  | conditional
  /-- A call of `midpoint`. -/
  | midpoint
  /-- Several signs outside all brackets. -/
  | chained (count : Nat)
  /-- A call that no formula makes. -/
  | call (name : String)
  /-- A direction that only the engine knows. -/
  | direction (name : String)
  /-- A day that only the engine knows. -/
  | base (name : String)
  /-- A solar angle with a sign. -/
  | signedAngle
  /-- A number that runs into a word other than the unit of minutes. -/
  | durationUnit (unit : String)
deriving DecidableEq, Repr

namespace Obstacle

def reason : Obstacle → Reason
  | .conditional => .conditional
  | .midpoint => .midpoint
  | .chained _ => .chainedOperations
  | .call _ => .unknownFunction
  | .direction _ => .unknownSyntax
  | .base _ => .unknownSyntax
  | .signedAngle => .unknownSyntax
  | .durationUnit _ => .unknownSyntax

/-- The explanation of an obstacle. -/
def details : Obstacle → String
  | .conditional => "Conditional (if/else) formulas cannot be edited in the formula builder"
  | .midpoint => "midpoint() between two times cannot be edited in the formula builder"
  | .chained count =>
      "Formula chains " ++ Nat.repr count
        ++ " arithmetic operations; the formula builder supports a single offset"
  | .call name =>
      if Engine.functions.contains name then
        name ++ "() is supported by the calculation engine but not by the formula builder"
      else "Unknown function '" ++ name ++ "()'"
  | .direction name => "Direction '" ++ name ++ "' is not available in the formula builder"
  | .base name =>
      "Base '" ++ name ++ "' is not one of the formula builder's bases ("
        ++ String.intercalate ", " (DayKind.all.map DayKind.token) ++ ")"
  | .signedAngle => "Signed solar angles cannot be edited in the formula builder"
  | .durationUnit unit =>
      "Duration unit '" ++ unit ++ "' is not supported; offsets are written in whole minutes"

end Obstacle

/-- An obstacle and the token that shows it. -/
structure Finding where
  obstacle : Obstacle
  blamed : PlacedToken
deriving DecidableEq, Repr

namespace Finding

/-- The first finding of a look at each token and the tokens after it. -/
def first? (look : PlacedToken → List PlacedToken → Option Finding) :
    List PlacedToken → Option Finding
  | [] => none
  | placed :: rest => (look placed rest).or (first? look rest)

/-- A call is open when a round bracket comes next. -/
def opensCall : List PlacedToken → Bool
  | next :: _ => next.token == .opening .round
  | [] => false

/-- An `else` anywhere, or an `if` that opens a call. -/
def conditional? : List PlacedToken → Option Finding :=
  first? fun placed rest =>
    if placed.token = .name "else" ∨ (placed.token = .name "if" ∧ opensCall rest) then
      some ⟨.conditional, placed⟩
    else none

/-- A call of `midpoint`. -/
def midpoint? : List PlacedToken → Option Finding :=
  first? fun placed rest =>
    if placed.token = .name "midpoint" ∧ opensCall rest then some ⟨.midpoint, placed⟩ else none

/-- The signs outside all brackets, where a closing bracket without an opening one counts for
nothing. -/
def topLevelSigns (depth : Nat) : List PlacedToken → List PlacedToken
  | [] => []
  | placed :: rest =>
      match placed.token with
      | .opening _ => topLevelSigns (depth + 1) rest
      | .closing _ => topLevelSigns (depth - 1) rest
      | .sign _ => if depth = 0 then placed :: topLevelSigns depth rest else topLevelSigns depth rest
      | _ => topLevelSigns depth rest

/-- More than one sign outside all brackets; the second is blamed. -/
def chained? (tokens : List PlacedToken) : Option Finding :=
  match topLevelSigns 0 tokens with
  | first :: second :: others => some ⟨.chained (first :: second :: others).length, second⟩
  | _ => none

/-- A call of a function that no formula calls. -/
def call? : List PlacedToken → Option Finding :=
  first? fun placed rest =>
    match placed.token with
    | .name name =>
        if opensCall rest ∧ name ∉ formulaFunctions then some ⟨.call name, placed⟩ else none
    | _ => none

/-- A direction or a day that only the engine knows. -/
def engineWord? : List PlacedToken → Option Finding :=
  first? fun placed _ =>
    match placed.token with
    | .name name =>
        if name ∈ Engine.directions ∧ name ∉ SolarDirection.all.map SolarDirection.token then
          some ⟨.direction name, placed⟩
        else if name ∈ Engine.bases ∧ name ∉ DayKind.all.map DayKind.token then
          some ⟨.base name, placed⟩
        else none
    | _ => none

/-- A sign right before the angle of a solar call. -/
def signedAngle? : List PlacedToken → Option Finding :=
  first? fun placed rest =>
    match placed.token, rest with
    | .name name, bracket :: sign :: _ =>
        match bracket.token, sign.token with
        | .opening .round, .sign _ => if name = "solar" then some ⟨.signedAngle, sign⟩ else none
        | _, _ => none
    | _, _ => none

/-- A word other than the unit of minutes that follows a number without a gap. -/
def durationUnit? : List PlacedToken → Option Finding :=
  first? fun placed rest =>
    match placed.token, rest with
    | .number _, next :: _ =>
        match next.token with
        | .name unit =>
            if next.span.start = placed.span.stop ∧ unit ≠ "min" then
              some ⟨.durationUnit unit, next⟩
            else none
        | _ => none
    | _, _ => none

/-- The obstacle that comes first in the order of precedence. -/
def ofTokens? (tokens : List PlacedToken) : Option Finding :=
  conditional? tokens
    |>.or (midpoint? tokens)
    |>.or (chained? tokens)
    |>.or (call? tokens)
    |>.or (engineWord? tokens)
    |>.or (signedAngle? tokens)
    |>.or (durationUnit? tokens)

end Finding

/-- Why a text is no formula, and the span of the token to blame if there is one. -/
structure Diagnosis where
  reason : Reason
  details : String
  span : Option Text.Span
deriving DecidableEq, Repr

namespace Diagnosis

/-- A text without an obstacle has unknown syntax at no token in particular. -/
def ofFinding? : Option Finding → Diagnosis
  | some finding =>
      ⟨finding.obstacle.reason, finding.obstacle.details, some finding.blamed.span⟩
  | none => ⟨.unknownSyntax, "Formula does not match any formula builder pattern", none⟩

/-- The diagnosis of a text looks at its tokens alone. -/
def ofText (text : List Char) : Diagnosis := ofFinding? (Finding.ofTokens? (placedTokens text))

end Diagnosis

end Zmanim
