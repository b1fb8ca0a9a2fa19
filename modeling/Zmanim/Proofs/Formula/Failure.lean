import Zmanim.Proofs.Formula.Stop
/-! All failures of the forms. -/

namespace Zmanim
open Text

variable {Value Next : Type}

/-- A reader and the failures that its reading recovers from. -/
structure Watched (Value : Type) where
  reader : Reader Value
  passed : List Char → List Note

namespace Watched

instance : Monad Watched where
  pure value := ⟨pure value, fun _ => []⟩
  bind first next :=
    { reader := first.reader >>= fun value => (next value).reader
      passed := fun text =>
        first.passed text ++ match first.reader text with
          | .ok (value, left) => (next value).passed left
          | .error _ => [] }

/-- A reader that recovers from nothing. -/
def ofReader (reader : Reader Value) : Watched Value := ⟨reader, fun _ => []⟩

def spaced (watched : Watched Value) : Watched Value := do
  ofReader Reader.gap
  let value ← watched
  ofReader Reader.gap
  return value

def expecting (part : Expectation) (watched : Watched Value) : Watched Value where
  reader := Reader.expecting part watched.reader
  passed := watched.passed

/-- The failures of the first reader are passed over when the second is tried. -/
def either (first second : Watched Value) : Watched Value where
  reader := Reader.either first.reader second.reader
  passed text :=
    first.passed text ++ match first.reader text with
      | .ok _ => []
      | .error notes => notes ++ second.passed text

/-- A name may lack the at sign of a reference. -/
def zman : Watched String where
  reader := Reader.zman
  passed
    | '@' :: _ => []
    | text => [⟨text, .missing '@'⟩]

/-- A number may lack a point, and a point that no digit follows is left unread. -/
def number : Watched Double where
  reader := Reader.number
  passed text :=
    if text.takeWhile Char.isDigit = [] then []
    else
      match text.dropWhile Char.isDigit with
      | '.' :: rest => if rest.takeWhile Char.isDigit = [] then [⟨rest, .refused⟩] else []
      | rest => [⟨rest, .missing '.'⟩]

end Watched

namespace Form
open Watched

/-- The reader of a form with the failures that its reading recovers from. -/
def watched : Form → Watched Formula
  | .solar => do
      ofReader (Reader.spaced (Reader.word "solar"))
      ofReader opening
      let degrees ← expecting .angle (spaced number)
      ofReader separator
      let direction ← ofReader (Reader.expecting .direction (Reader.spaced Reader.direction))
      ofReader closing
      return .solar degrees direction
  | .proportional => do
      ofReader (Reader.spaced (Reader.word "proportional_hours"))
      ofReader opening
      let hours ← expecting .hours (spaced number)
      ofReader separator
      let day ← expecting .day
        (either (ofReader customDay) (ofReader (Reader.spaced Reader.standardDay)))
      ofReader closing
      return .proportional hours day
  | .offset => do
      let base ← spaced zman
      let side ← ofReader (Reader.spaced Reader.sign)
      let minutes ← ofReader (Reader.expecting .minutes Reader.minutes)
      ofReader (Reader.expecting .minuteUnit (Reader.literal ['m', 'i', 'n']))
      return .offset base side minutes
  | .fixedZman => do
      let name ← spaced zman
      return .fixedZman name

/-- Watching the reader of a form does not change it. -/
theorem reader_watched (form : Form) : form.watched.reader = form.reader := by
  cases form <;> rfl

/-- The failures that the reading of a whole text ends with. -/
def kept (form : Form) (text : List Char) : List Note :=
  match form.reader.whole text with
  | .ok _ => []
  | .error notes => notes

/-- All failures of the reading of a whole text. -/
def failures (form : Form) (text : List Char) : List Note :=
  form.watched.passed text ++ form.kept text

end Form

/-- Settled notes are all of one place, and they name a part unless they are mere refusals. -/
structure Settled (left : List Char) (notes : List Note) : Prop where
  nonempty : notes ≠ []
  place : ∀ note ∈ notes, note.left = left
  named : (notes.findSome? Note.part?).isSome = true ∨ ∀ note ∈ notes, note.cause = .refused

/-- The stop of settled notes is their place, with the innermost part that they name. -/
theorem Settled.ofNotes? {left : List Char} {notes : List Note} (settled : Settled left notes) :
    Stop.ofNotes? notes = some ⟨left, notes.findSome? Note.part?⟩ := by
  obtain ⟨note, member, deepest⟩ := Note.exists_deepest? settled.nonempty
  rw [Stop.ofNotes?, deepest, Option.map_some, settled.place note member]
  rcases settled.named with some | refused
  · rw [Option.or_of_isSome some]
  · have none : note.character? = none := by rw [Note.character?, refused note member]
    rw [none, Option.or_none]

theorem Settled.filter_eq {left : List Char} {notes : List Note} (settled : Settled left notes) :
    (notes.filter fun note => note.left = left) = notes :=
  List.filter_eq_self.mpr fun note member => decide_eq_true (settled.place note member)

/-- Settled notes have a single place. -/
theorem Settled.eq_of_left {place text : List Char} {notes : List Note}
    (settled : Settled place notes) (same : ∀ note ∈ notes, note.left = text) : place = text := by
  obtain ⟨note, member⟩ := List.exists_mem_of_ne_nil notes settled.nonempty
  rw [← settled.place note member, same note member]

namespace Reader

variable {before after : List Char → Prop} {reader : Reader Value} {text left : List Char}
  {notes : List Note}

/-- A reader that settles has settled notes when it fails on a text of some kind. -/
def Settles (before : List Char → Prop) (reader : Reader Value) : Prop :=
  ∀ text notes, before text → reader text = .error notes → ∃ left, Settled left notes

/-- A prompt reader fails at the beginning of a text of some kind. -/
def Prompt (before : List Char → Prop) (reader : Reader Value) : Prop :=
  ∀ text notes, before text → reader text = .error notes →
    notes ≠ [] ∧ ∀ note ∈ notes, note.left = text

theorem settles_pure (value : Value) : (pure value : Reader Value).Settles before := by
  intro text notes _ failed
  simp at failed

theorem Settles.bind {next : Value → Reader Next} (first : reader.Settles before)
    (leaves : ∀ {text value left}, reader text = .ok (value, left) → after left)
    (second : ∀ value, (next value).Settles after) : (reader >>= next).Settles before := by
  intro text notes begins failed
  rw [bind_apply] at failed
  cases read : reader text with
  | ok result =>
      rw [read] at failed
      exact second result.1 _ _ (leaves read) failed
  | error earlier =>
      rw [read] at failed
      obtain rfl := Except.error.inj failed
      exact first _ _ begins read

theorem prompt_ofScan {cause : Cause} {scan : List Char → Option (Value × List Char)} :
    (ofScan cause scan).Prompt before := by
  intro text notes _ failed
  unfold ofScan at failed
  split at failed
  · simp at failed
  · obtain rfl := Except.error.inj failed
    exact ⟨by simp, by simp⟩

theorem Prompt.spaced (prompt : reader.Prompt (Stops isGap)) :
    (spaced reader).Prompt (Stops isGap) := by
  intro text notes stops failed
  have whole : text.dropWhile isGap = text := run_nil.dropWhile_append stops
  rw [spaced_apply, whole] at failed
  split at failed
  · simp at failed
  · rename_i earlier inner
    obtain rfl := Except.error.inj failed
    exact prompt _ _ stops inner

/-- A part that fails where it begins is named there. -/
theorem Prompt.settled {part : Expectation} (prompt : reader.Prompt before) (begins : before text)
    (failed : expecting part reader text = .error notes) : Settled text notes := by
  unfold Reader.expecting at failed
  split at failed
  · simp at failed
  · rename_i earlier inner
    obtain rfl := Except.error.inj failed
    obtain ⟨-, place⟩ := prompt _ _ begins inner
    refine ⟨by simp, List.forall_mem_append.mpr ⟨place, by simp⟩, .inl ?_⟩
    simp [List.findSome?_append, Note.part?]

theorem Prompt.expecting (prompt : reader.Prompt before) (part : Expectation) :
    (expecting part reader).Settles before :=
  fun _ _ begins failed => ⟨_, prompt.settled begins failed⟩

theorem Prompt.either {first second : Reader Value} (prompt : second.Prompt before) :
    (either first second).Prompt before := by
  intro text notes begins failed
  unfold Reader.either at failed
  split at failed
  · simp at failed
  · split at failed
    · simp at failed
    · rename_i earlier inner
      obtain rfl := Except.error.inj failed
      obtain ⟨-, place⟩ := prompt _ _ begins inner
      exact ⟨by simp, List.forall_mem_append.mpr ⟨place, by simp⟩⟩

/-- A reader that refuses a text does so at one place, where it names no part. -/
def Refuses (reader : Reader Value) : Prop :=
  ∀ text notes, reader text = .error notes → ∃ left, notes = [⟨left, .refused⟩]

theorem refuses_ofScan {scan : List Char → Option (Value × List Char)} :
    (ofScan .refused scan).Refuses := by
  intro text notes failed
  unfold ofScan at failed
  split at failed
  · simp at failed
  · exact ⟨text, (Except.error.inj failed).symm⟩

theorem refuses_zman : zman.Refuses := by
  intro text notes failed
  unfold zman at failed
  split at failed
  · exact refuses_ofScan _ _ failed
  · exact refuses_ofScan _ _ failed

theorem Refuses.spaced (refuses : reader.Refuses) : (spaced reader).Refuses := by
  intro text notes failed
  rw [spaced_apply] at failed
  split at failed
  · simp at failed
  · rename_i earlier inner
    obtain rfl := Except.error.inj failed
    exact refuses _ _ inner

theorem Refuses.settles (refuses : reader.Refuses) : reader.Settles before := by
  intro text notes _ failed
  obtain ⟨left, rfl⟩ := refuses _ _ failed
  exact ⟨left, by simp, by simp, .inr (by simp)⟩

/-- When a text is not taken whole, what is left over is a refusal. -/
theorem Settles.whole (settles : reader.Settles before) (begins : before text)
    (failed : reader.whole text = .error notes) : ∃ left, Settled left notes := by
  unfold Reader.whole at failed
  split at failed
  · simp at failed
  · rename_i left _ _
    obtain rfl := Except.error.inj failed
    exact ⟨left, by simp, by simp, .inr (by simp)⟩
  · rename_i inner
    obtain rfl := Except.error.inj failed
    exact settles _ _ begins inner

/-- What is left after a named part between gaps does not begin with a gap. -/
theorem stops_of_expecting {part : Expectation} {value : Value}
    (taken : expecting part (spaced reader) text = .ok (value, left)) : Stops isGap left :=
  stops_of_spaced (expecting_eq_ok_iff.mp taken)

end Reader

namespace Form
open Reader

variable {text left : List Char} {notes : List Note}

/-- A part between gaps that is noted where it begins. -/
theorem settles_part {reader : Reader Value} (prompt : reader.Prompt (Stops isGap))
    (part : Expectation) : (expecting part (spaced reader)).Settles (Stops isGap) :=
  prompt.spaced.expecting part

theorem stops_of_day {day : Day}
    (taken : either customDay (spaced standardDay) text = .ok (day, left)) : Stops isGap left := by
  rcases either_eq_ok_iff.mp taken with custom | ⟨-, standard⟩
  · simp only [customDay, closing, bind_eq_ok_iff, pure_apply, Except.ok.injEq,
      Prod.mk.injEq] at custom
    obtain ⟨_, _, -, _, _, -, _, _, -, _, _, -, _, _, -, _, _, closes, -, rfl⟩ := custom
    exact stops_of_expecting closes
  · exact stops_of_spaced standard

/-- The failures that a form ends with are settled. -/
theorem settles_reader (form : Form) : form.reader.Settles (Stops isGap) := by
  cases form with
  | solar =>
      exact refuses_ofScan.spaced.settles.bind stops_of_spaced fun _ =>
        (settles_part prompt_ofScan _).bind stops_of_expecting fun _ =>
          (settles_part prompt_ofScan _).bind stops_of_expecting fun _ =>
            (settles_part prompt_ofScan _).bind stops_of_expecting fun _ =>
              (settles_part prompt_ofScan _).bind stops_of_expecting fun _ =>
                (settles_part prompt_ofScan _).bind stops_of_expecting fun _ => settles_pure _
  | proportional =>
      exact refuses_ofScan.spaced.settles.bind stops_of_spaced fun _ =>
        (settles_part prompt_ofScan _).bind stops_of_expecting fun _ =>
          (settles_part prompt_ofScan _).bind stops_of_expecting fun _ =>
            (settles_part prompt_ofScan _).bind stops_of_expecting fun _ =>
              (prompt_ofScan.spaced.either.expecting _).bind
                (fun taken => stops_of_day (expecting_eq_ok_iff.mp taken)) fun _ =>
                (settles_part prompt_ofScan _).bind stops_of_expecting fun _ => settles_pure _
  | offset =>
      exact refuses_zman.spaced.settles.bind stops_of_spaced fun _ =>
        refuses_ofScan.spaced.settles.bind stops_of_spaced fun _ =>
          (prompt_ofScan.expecting _).bind (fun _ => trivial) fun _ =>
            (prompt_ofScan.expecting _).bind (fun _ => trivial) fun _ => settles_pure _
  | fixedZman => exact refuses_zman.spaced.settles.bind stops_of_spaced fun _ => settles_pure _

theorem whole_eq_error {form : Form} (untaken : form.read? text = none) :
    form.reader.whole text = .error (form.kept text) := by
  unfold read? at untaken
  unfold kept
  cases whole : form.reader.whole text with
  | ok formula => simp [whole, Except.toOption] at untaken
  | error notes => rfl

/-- A form that does not take a text whole stops at the place of its failures. -/
theorem exists_settled {form : Form} (stops : Stops isGap text) (untaken : form.read? text = none) :
    ∃ left, Settled left (form.kept text) ∧
      form.stop? text = some ⟨left, (form.kept text).findSome? Note.part?⟩ := by
  have failed := whole_eq_error untaken
  obtain ⟨left, settled⟩ := form.settles_reader.whole stops failed
  refine ⟨left, settled, ?_⟩
  rw [stop?, failed]
  exact settled.ofNotes?

/-- When no form takes a text, the furthest stop is where one of the forms fails, and no form fails
further on. -/
theorem exists_furthest_settled (stops : Stops isGap text)
    (untaken : ∀ form : Form, form.read? text = none) :
    ∃ (form : Form) (left : List Char), Settled left (form.kept text) ∧
      furthestStop? all text = some ⟨left, (form.kept text).findSome? Note.part?⟩ ∧
      ∀ (other : Form) place, Settled place (other.kept text) → left.length ≤ place.length := by
  have nonempty : (all.filterMap fun form => form.stop? text) ≠ [] := by
    obtain ⟨_, -, stopped⟩ := exists_settled stops (untaken .solar)
    exact List.ne_nil_of_mem (List.mem_filterMap.mpr ⟨.solar, mem_all .solar, stopped⟩)
  obtain ⟨stop, member, furthest⟩ := Stop.exists_furthest? nonempty
  obtain ⟨form, -, found⟩ := List.mem_filterMap.mp member
  obtain ⟨left, settled, stopped⟩ := exists_settled stops (untaken form)
  obtain rfl := Option.some.inj (found.symm.trans stopped)
  refine ⟨form, left, settled, furthest, fun other place elsewhere => ?_⟩
  obtain ⟨rest, same, stopped⟩ := exists_settled stops (untaken other)
  rw [elsewhere.eq_of_left same.place]
  exact Stop.length_le_of_furthest? furthest
    (List.mem_filterMap.mpr ⟨other, mem_all other, stopped⟩)

end Form

namespace Watched

variable {text : List Char} {note : Note}

theorem mem_passed_bind {first : Watched Value} {next : Value → Watched Next} :
    note ∈ (first >>= next).passed text ↔
      note ∈ first.passed text ∨
        ∃ value left, first.reader text = .ok (value, left) ∧ note ∈ (next value).passed left := by
  change note ∈ first.passed text ++ _ ↔ _
  rw [List.mem_append]
  cases first.reader text with
  | ok result =>
      constructor
      · rintro (before | behind)
        · exact .inl before
        · exact .inr ⟨result.1, result.2, rfl, behind⟩
      · rintro (before | ⟨_, _, ⟨⟩, behind⟩)
        · exact .inl before
        · exact .inr behind
  | error notes => simp

theorem mem_passed_ofReader_bind {reader : Reader Value} {next : Value → Watched Next} :
    note ∈ (ofReader reader >>= next).passed text ↔
      ∃ value left, reader text = .ok (value, left) ∧ note ∈ (next value).passed left := by
  rw [mem_passed_bind]
  simp [ofReader]

@[simp] theorem passed_pure (value : Value) : (pure value : Watched Value).passed text = [] := rfl

@[simp] theorem passed_ofReader (reader : Reader Value) : (ofReader reader).passed text = [] := rfl

theorem mem_passed_spaced {watched : Watched Value} :
    note ∈ (spaced watched).passed text ↔ note ∈ watched.passed (text.dropWhile isGap) := by
  rw [spaced, mem_passed_ofReader_bind]
  constructor
  · rintro ⟨_, _, ⟨⟩, inside⟩
    rcases mem_passed_bind.mp inside with inside | ⟨_, _, -, behind⟩
    · exact inside
    · obtain ⟨_, _, -, nothing⟩ := mem_passed_ofReader_bind.mp behind
      exact absurd nothing List.not_mem_nil
  · intro inside
    exact ⟨(), _, rfl, mem_passed_bind.mpr (.inl inside)⟩

end Watched

end Zmanim
