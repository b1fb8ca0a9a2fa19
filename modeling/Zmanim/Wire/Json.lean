import Zmanim.Number.Double
/-! JSON values as the wire form uses them. -/

namespace Zmanim

/-- A JSON value; an object keeps its members in order. Integers are kept apart from other numbers,
because a count must be written as an integer. -/
inductive Json where
  | null
  | bool (value : Bool)
  | integer (value : Int)
  | real (value : Double)
  | string (value : String)
  | array (items : List Json)
  | object (members : List (String × Json))

namespace Json

/-- A number without a JSON form is written as null. -/
def ofDouble (number : Double) : Json := if number.isFinite then .real number else .null

def ofNat (count : Nat) : Json := .integer count

def ofStrings (texts : List String) : Json := .array (texts.map .string)

/-- An absent value is written as null. -/
def ofOption {Value : Type} (write : Value → Json) : Option Value → Json
  | some value => write value
  | none => .null

/-- The values of the members with a key. -/
def values (key : String) : Json → List Json
  | .object members => (members.filter fun member => member.1 == key).map Prod.snd
  | _ => []

/-- The value of the member with a key, when there is one alone. -/
def member? (key : String) (json : Json) : Option Json :=
  match json.values key with
  | [value] => some value
  | _ => none

def string? : Json → Option String
  | .string value => some value
  | _ => none

/-- Any JSON number is a double, but null is not. -/
def double? : Json → Option Double
  | .integer value => some (Double.ofInt value)
  | .real value => some value
  | _ => none

/-- A count is an integer from zero up to a bound. -/
def below? (bound : Nat) : Json → Option Nat
  | .integer value => if 0 ≤ value ∧ value < bound then some value.toNat else none
  | _ => none

/-- A count of at most 64 bits. -/
def count? : Json → Option Nat := below? UInt64.size

/-- A word of a vocabulary. -/
def word? {Value : Type} (values : List Value) (token : Value → String) : Json → Option Value
  | .string text => values.find? fun value => token value == text
  | _ => none

/-- An optional value may be null. -/
def optional? {Value : Type} (read : Json → Option Value) : Json → Option (Option Value)
  | .null => some none
  | json => (read json).map some

/-- A required member, which must not be repeated. -/
def required {Value : Type} (json : Json) (key : String) (read : Json → Option Value) :
    Option Value :=
  (json.member? key).bind read

/-- An optional member may be missing or null, but it must not be repeated. -/
def optional {Value : Type} (json : Json) (key : String) (read : Json → Option Value) :
    Option (Option Value) :=
  if (json.values key).isEmpty then some none else (json.member? key).bind (optional? read)

theorem word?_token {Value : Type} {values : List Value} {token : Value → String} {value : Value}
    (member : value ∈ values) (injective : Function.Injective token) :
    word? values token (.string (token value)) = some value := by
  unfold word?
  rw [List.find?_eq_some_iff_append]
  obtain ⟨before, after, rfl, fresh⟩ := List.eq_append_cons_of_mem member
  refine ⟨by simp, before, after, rfl, fun other inside => ?_⟩
  have different : other ≠ value := fun same => fresh (same ▸ inside)
  simpa using fun same => different (injective same)

end Json

end Zmanim
