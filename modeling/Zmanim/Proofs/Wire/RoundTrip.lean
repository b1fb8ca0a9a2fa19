import Zmanim.Proofs.Editor.Latent
import Zmanim.Proofs.Formula.Normal
import Zmanim.Proofs.Formula.Recognition
import Zmanim.Wire.Formula
/-! Round trips of the wire form. -/

namespace Zmanim

namespace Json

variable {Value : Type} {json item : Json} {key : String} {read : Json → Option Value}
  {value : Value}

/-- A faithful writer of numbers lets a finite number be read back as it was, and writes null for any
other number. -/
structure Faithful (number : Double → Json) : Prop where
  finite : ∀ value, value.isFinite = true → (number value).double? = some value
  infinite : ∀ value, value.isFinite = false → number value = .null

theorem faithful_ofDouble : Faithful ofDouble where
  finite value finite := by
    rw [ofDouble, if_pos finite]
    rfl
  infinite value infinite := by
    rw [ofDouble, if_neg (by simp [infinite])]

theorem Faithful.double?_eq {number : Double → Json} (faithful : Faithful number) (value : Double) :
    (number value).double? = if value.isFinite then some value else none := by
  split
  · rename_i finite
    exact faithful.finite value finite
  · rename_i infinite
    rw [faithful.infinite value (by simpa using infinite)]
    rfl

/-- The values under a key are found among the members with the keys that are looked for. -/
theorem values_eq_of_filter {keys : List String} {members others : List (String × Json)}
    (same : (members.filter fun member => member.1 ∈ keys) =
      others.filter fun member => member.1 ∈ keys) (mem : key ∈ keys) :
    (object members).values key = (object others).values key := by
  have find (members : List (String × Json)) : (members.filter fun member => member.1 == key) =
      (members.filter fun member => member.1 ∈ keys).filter fun member => member.1 == key := by
    rw [List.filter_filter]
    congr 1
    funext member
    rw [Bool.eq_iff_iff, Bool.and_eq_true, decide_eq_true_eq, beq_iff_eq]
    exact ⟨fun named => ⟨named, named ▸ mem⟩, And.left⟩
  rw [values, values, find, same, ← find]

theorem required_eq (found : json.values key = [item]) : json.required key read = read item := by
  rw [required, member?, found]
  rfl

/-- A count below the bound is read back. -/
theorem below?_ofNat {bound count : Nat} (fits : count < bound) :
    below? bound (.ofNat count) = some count := by
  simp [below?, ofNat, fits]

/-- An optional value is read back when no value is written as null. -/
theorem optional_eq {write : Value → Json} {optionalValue : Option Value}
    (found : json.values key = [ofOption write optionalValue])
    (inverse : ∀ value, read (write value) = some value) (solid : ∀ value, write value ≠ .null) :
    json.optional key read = some optionalValue := by
  have single : json.optional key read = optional? read (ofOption write optionalValue) := by
    rw [optional, member?, found]
    rfl
  rw [single]
  cases optionalValue with
  | none => rfl
  | some value =>
      unfold optional? ofOption
      split
      · rename_i null
        exact absurd null (solid value)
      · rw [inverse, Option.map_some]

end Json

theorem Method.token_injective : Function.Injective Method.token := by
  intro method other same
  cases method <;> cases other <;> first | rfl | exact absurd same (by decide)

theorem OffsetSide.token_injective : Function.Injective OffsetSide.token := by
  intro side other same
  cases side <;> cases other <;> first | rfl | exact absurd same (by decide)

theorem DayKind.token_injective : Function.Injective DayKind.token := by
  intro kind other same
  cases kind with
  | standard day =>
      cases other with
      | standard other => rw [day.eq_of_token same]
      | custom => cases day <;> exact absurd same (by decide)
  | custom =>
      cases other with
      | standard other => cases other <;> exact absurd same (by decide)
      | custom => rfl

namespace Editor
open Json

variable {number : Double → Json}

/-- The keys under which the inputs are written. -/
def keys : List String :=
  ["method", "baseTime", "selectedFixedZman", "solarDegrees", "solarDirection", "offsetBase",
    "offsetDirection", "offsetMinutes", "shaosHours", "shaosBase", "customStart", "customEnd"]

theorem map_fst_members (editor : Editor) : (editor.members number).map Prod.fst = keys := rfl

/-- The inputs are read from the members under their keys alone. -/
theorem ofJson?_congr {json other : Json}
    (same : ∀ key ∈ keys, json.values key = other.values key) : ofJson? json = ofJson? other := by
  simp only [keys, List.forall_mem_cons] at same
  obtain ⟨method, baseTime, fixedZman, solarDegrees, solarDirection, offsetBase, offsetSide,
    offsetMinutes, hours, day, customStart, customEnd, -⟩ := same
  simp only [ofJson?, Json.required, Json.optional, Json.member?, method, baseTime, fixedZman,
    solarDegrees, solarDirection, offsetBase, offsetSide, offsetMinutes, hours, day, customStart,
    customEnd]

/-- The inputs are read back when their numbers are finite. -/
theorem ofJson?_members (faithful : Faithful number) (editor : Editor) :
    ofJson? (.object (editor.members number)) =
      if editor.solarDegrees.isFinite && editor.hours.isFinite then some editor else none := by
  obtain ⟨json, written⟩ : ∃ json : Json, json = .object (editor.members number) := ⟨_, rfl⟩
  have found (key : String) :
      json.values key = (Json.object (editor.members number)).values key := by rw [written]
  have method : json.optional "method" (word? Method.all Method.token) = some editor.method :=
    optional_eq (found _) (fun method => word?_token method.mem_all Method.token_injective) nofun
  have baseTime : json.required "baseTime" string? = some editor.baseTime :=
    (required_eq (found _)).trans rfl
  have fixedZman : json.required "selectedFixedZman" string? = some editor.fixedZman :=
    (required_eq (found _)).trans rfl
  have solarDegrees : json.required "solarDegrees" double? =
      if editor.solarDegrees.isFinite then some editor.solarDegrees else none :=
    (required_eq (found _)).trans (faithful.double?_eq _)
  have solarDirection : json.required "solarDirection"
      (word? SolarDirection.all SolarDirection.token) = some editor.solarDirection :=
    (required_eq (found _)).trans
      (word?_token editor.solarDirection.mem_all fun direction _ => direction.eq_of_token)
  have offsetBase : json.required "offsetBase" string? = some editor.offsetBase :=
    (required_eq (found _)).trans rfl
  have offsetSide : json.required "offsetDirection" (word? OffsetSide.all OffsetSide.token) =
      some editor.offsetSide :=
    (required_eq (found _)).trans (word?_token editor.offsetSide.mem_all OffsetSide.token_injective)
  have offsetMinutes : json.required "offsetMinutes" (below? UInt32.size) =
      some editor.offsetMinutes.toNat :=
    (required_eq (found _)).trans (below?_ofNat editor.offsetMinutes.toNat_lt)
  have hours : json.required "shaosHours" double? =
      if editor.hours.isFinite then some editor.hours else none :=
    (required_eq (found _)).trans (faithful.double?_eq _)
  have day : json.required "shaosBase" (word? DayKind.all DayKind.token) = some editor.day :=
    (required_eq (found _)).trans (word?_token editor.day.mem_all DayKind.token_injective)
  have customStart : json.optional "customStart" string? = some editor.customStart :=
    optional_eq (found _) (fun _ => rfl) nofun
  have customEnd : json.optional "customEnd" string? = some editor.customEnd :=
    optional_eq (found _) (fun _ => rfl) nofun
  rw [← written]
  simp only [ofJson?, method, baseTime, fixedZman, solarDegrees, solarDirection, offsetBase,
    offsetSide, offsetMinutes, hours, day, customStart, customEnd, Option.bind_eq_bind,
    Option.bind_some, UInt32.ofNat_toNat]
  cases editor.solarDegrees.isFinite <;> cases editor.hours.isFinite <;> rfl

end Editor

namespace Day
open Json

theorem ofJson?_toJson (day : Day) : ofJson? day.toJson = some day := by
  cases day with
  | standard day =>
      have kind : (standard day).toJson.required "base" (word? DayKind.all DayKind.token) =
          some (.standard day) :=
        (required_eq rfl).trans
          (word?_token (DayKind.standard day).mem_all DayKind.token_injective)
      rw [ofJson?, kind]
      rfl
  | custom start finish =>
      have kind : (custom start finish).toJson.required "base" (word? DayKind.all DayKind.token) =
          some .custom :=
        (required_eq rfl).trans (word?_token DayKind.custom.mem_all DayKind.token_injective)
      have first : (custom start finish).toJson.optional "start" string? = some start :=
        optional_eq rfl (fun _ => rfl) nofun
      have last : (custom start finish).toJson.optional "end" string? = some finish :=
        optional_eq rfl (fun _ => rfl) nofun
      simp only [ofJson?, kind, first, last, Option.bind_eq_bind, Option.bind_some]
      rfl

end Day

namespace Formula
open Json

variable {number : Double → Json}

/-- A formula with finite numbers is read back. -/
theorem ofJson?_toJson (faithful : Faithful number) (formula : Formula)
    (finite : ∀ value ∈ formula.numbers, value.isFinite = true) :
    ofJson? (formula.toJson number) = some formula := by
  cases formula with
  | baseTime name => rfl
  | fixedZman name => rfl
  | solar degrees direction =>
      have first : ((solar degrees direction).toJson number).required "degrees" double? =
          some degrees :=
        (required_eq rfl).trans (faithful.finite _ (finite degrees List.mem_cons_self))
      have second : ((solar degrees direction).toJson number).required "direction"
          (word? SolarDirection.all SolarDirection.token) = some direction :=
        (required_eq rfl).trans
          (word?_token direction.mem_all fun direction _ => direction.eq_of_token)
      have method : ((solar degrees direction).toJson number).required "method" string? =
          some "solar" := rfl
      simp only [ofJson?, method, first, second, Option.bind_eq_bind, Option.bind_some]
      rfl
  | offset base side minutes =>
      have first : ((offset base side minutes).toJson number).required "base" string? =
          some base := rfl
      have second : ((offset base side minutes).toJson number).required "direction"
          (word? OffsetSide.all OffsetSide.token) = some side :=
        (required_eq rfl).trans (word?_token side.mem_all OffsetSide.token_injective)
      have third : ((offset base side minutes).toJson number).required "minutes"
          (below? UInt32.size) = some minutes.toNat :=
        (required_eq rfl).trans (below?_ofNat minutes.toNat_lt)
      have method : ((offset base side minutes).toJson number).required "method" string? =
          some "fixed_offset" := rfl
      simp only [ofJson?, method, first, second, third, Option.bind_eq_bind, Option.bind_some,
        UInt32.ofNat_toNat]
      rfl
  | proportional hours day =>
      have first : ((proportional hours day).toJson number).required "hours" double? =
          some hours :=
        (required_eq rfl).trans (faithful.finite _ (finite hours List.mem_cons_self))
      have second : ((proportional hours day).toJson number).required "base" Day.ofJson? =
          some day :=
        (required_eq rfl).trans day.ofJson?_toJson
      have method : ((proportional hours day).toJson number).required "method" string? =
          some "proportional" := rfl
      simp only [ofJson?, method, first, second, Option.bind_eq_bind, Option.bind_some]
      rfl

end Formula

namespace Snapshot

variable {number : Double → Json}

/-- What is written behind the inputs is not read. -/
theorem ofJson?_eq_of_filter {members others : List (String × Json)}
    (same : (members.filter fun member => member.1 ∈ Editor.keys) =
      others.filter fun member => member.1 ∈ Editor.keys) :
    ofJson? (.object members) = ofJson? (.object others) := by
  rw [ofJson?, ofJson?, Editor.ofJson?_congr fun key mem => Json.values_eq_of_filter same mem]

/-- A snapshot is read from its inputs alone. -/
theorem ofJson?_toJson (snapshot : Snapshot) :
    ofJson? (snapshot.toJson number) = ofJson? (.object (snapshot.editor.members number)) := by
  apply ofJson?_eq_of_filter
  rw [List.filter_append, List.append_right_eq_self]
  rfl

theorem Fresh.ofJson?_toJson {snapshot : Snapshot} (fresh : snapshot.Fresh)
    (faithful : Json.Faithful number) :
    ofJson? (snapshot.toJson number) =
      if snapshot.editor.solarDegrees.isFinite && snapshot.editor.hours.isFinite then some snapshot
      else none := by
  rw [snapshot.ofJson?_toJson, ofJson?, Editor.ofJson?_members faithful]
  split
  · rw [Option.map_some, fresh.eq_of_editor (fresh_revalidated _) rfl]
    rfl
  · rfl

/-- What JSON can hold is read back as it was written, and what the wire form says of validity is not
trusted: a snapshot is read from its inputs alone. -/
theorem restored_of_faithful (faithful : Json.Faithful number) :
    (∀ snapshot : Snapshot, snapshot.Reachable →
      ofJson? (snapshot.toJson number) =
        if snapshot.editor.solarDegrees.isFinite && snapshot.editor.hours.isFinite
        then some snapshot
        else none) ∧
    (∀ editor : Editor, (editor.members number).map Prod.fst = Editor.keys) ∧
    ("isValid" ∉ Editor.keys ∧ "validationErrors" ∉ Editor.keys) ∧
    (∀ members others : List (String × Json),
      ((members.filter fun member => member.1 ∈ Editor.keys) =
        others.filter fun member => member.1 ∈ Editor.keys) →
      ofJson? (.object members) = ofJson? (.object others)) ∧
    ∀ formula : Formula, (∀ value ∈ formula.numbers, value.isFinite = true) →
      Formula.ofJson? (formula.toJson number) = some formula := by
  refine ⟨?reached, Editor.map_fst_members, by decide, ?derived, ?formula⟩
  case reached =>
    intro snapshot reachable
    exact reachable.fresh.ofJson?_toJson faithful
  case derived =>
    intro members others same
    exact ofJson?_eq_of_filter same
  case formula =>
    intro formula finite
    exact formula.ofJson?_toJson faithful finite

/-- A stale outcome is written in front of the inputs of an offset, a number of hours is lost, and a
custom day lacks its end. -/
theorem restored_of_stale :
    ofJson? (.object (("isValid", .null) ::
        (Editor.ofFormula (.offset "" .after 5)).members Json.ofDouble)) =
      some (ofFormula (.offset "" .after 5)) ∧
    ofJson? ((initial.apply (.hours (.infinite false))).toJson Json.ofDouble) = none ∧
    Formula.ofJson? ((Formula.proportional 3 (.custom (some "a") none)).toJson Json.ofDouble) =
      some (.proportional 3 (.custom (some "a") none)) := by
  obtain ⟨reached, -, -, derived, formula⟩ := restored_of_faithful Json.faithful_ofDouble
  refine ⟨?stale, ?lost, formula _ (by decide +kernel)⟩
  case stale =>
    have untrusted : ofJson? (.object (("isValid", .null) ::
        (Editor.ofFormula (.offset "" .after 5)).members Json.ofDouble)) =
        ofJson? ((ofFormula (.offset "" .after 5)).toJson Json.ofDouble) :=
      derived _ _ rfl
    rw [untrusted, reached _ (.made (.ofFormula _)), if_pos (by decide +kernel)]
  case lost =>
    rw [reached _ (.apply _ (.made .initial)), if_neg (by decide +kernel)]

end Snapshot

end Zmanim
