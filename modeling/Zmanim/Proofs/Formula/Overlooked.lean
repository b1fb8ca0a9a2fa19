import Zmanim.Proofs.Formula.Failure
/-! Failures that are overlooked. -/

namespace Zmanim
open Text

/-- A point is dangling when it comes after digits but no digit comes after it. -/
def Text.DanglingPoint (text : List Char) : Prop :=
  ∃ digits rest, digits ≠ [] ∧ Run Char.isDigit digits ∧ Stops Char.isDigit rest ∧
    text = digits ++ '.' :: rest

namespace Reader

variable {Value Next : Type} {reader : Reader Value} {text left : List Char} {value : Value}
  {notes : List Note}

theorem exists_number {fraction : List Char} (nonempty : text.takeWhile Char.isDigit ≠ [])
    (scanned : Numeral.scanFraction (text.dropWhile Char.isDigit) = (fraction, left)) :
    ∃ value, number text = .ok (value, left) := by
  refine ⟨.ofDecimal (Numeral.value ⟨text.takeWhile Char.isDigit, fraction⟩),
    ofScan_eq_ok_iff.mpr ?_⟩
  simp [Numeral.scan, nonempty, scanned]

/-- A part takes some of the text. -/
theorem Reads.length_lt {spelled : Value → List Char → Prop} {continued : Char → Bool}
    (reads : reader.Reads spelled continued) (taken : spaced reader text = .ok (value, left)) :
    left.length < text.length := by
  obtain ⟨rest, read, rfl⟩ := spaced_eq_ok_iff.mp taken
  obtain ⟨part, spells, shape⟩ := reads.sound read
  have some := List.length_pos_iff.mpr (reads.solid spells).nonempty
  have whole := (List.dropWhile_suffix (l := text) isGap).length_le
  have behind := (List.dropWhile_suffix (l := rest) isGap).length_le
  rw [shape, List.length_append] at whole
  omega

/-- The first of two readers leaves the whole of the rest to the second. -/
theorem whole_bind {next : Value → Reader Next} (read : reader text = .ok (value, left)) :
    (reader >>= next).whole text = (next value).whole left := by
  unfold whole
  rw [bind_apply, read]

theorem whole_bind_error {next : Value → Reader Next} (failed : reader text = .error notes) :
    (reader >>= next).whole text = .error notes := by
  unfold whole
  rw [bind_apply, failed]

/-- The settled failures of a reading lie within the text that is read. -/
theorem Orderly.length_le {place : List Char} (orderly : reader.Orderly)
    (failed : reader.whole text = .error notes) (settled : Settled place notes) :
    place.length ≤ text.length := by
  obtain ⟨nonempty, places⟩ := orderly.whole failed
  obtain ⟨note, member⟩ := List.exists_mem_of_ne_nil notes nonempty
  rw [← settled.place note member]
  exact (places note member).length_le

theorem dropWhile_eq (stops : Stops isGap text) : text.dropWhile isGap = text :=
  run_nil.dropWhile_append stops

end Reader

namespace Watched

variable {text : List Char} {note : Note}

/-- What a number passes over comes after a point that no digit follows, or right after digits that
no point follows. -/
theorem cases_of_passed_number (passed : note ∈ number.passed text) :
    text.takeWhile Char.isDigit ≠ [] ∧
      ((∃ rest, text.dropWhile Char.isDigit = '.' :: rest ∧ rest.takeWhile Char.isDigit = [] ∧
          note = ⟨rest, .refused⟩) ∨
        (∀ rest, text.dropWhile Char.isDigit ≠ '.' :: rest) ∧
          note = ⟨text.dropWhile Char.isDigit, .missing '.'⟩) := by
  unfold number at passed
  dsimp only at passed
  split at passed
  · simp at passed
  · rename_i nonempty
    refine ⟨nonempty, ?_⟩
    split at passed
    · rename_i rest shape
      split at passed
      · rename_i none
        exact .inl ⟨rest, shape, none, List.mem_singleton.mp passed⟩
      · simp at passed
    · rename_i other
      exact .inr ⟨other, List.mem_singleton.mp passed⟩

theorem part?_of_passed_number (passed : note ∈ number.passed text) : note.part? = none := by
  obtain ⟨-, ⟨_, -, -, rfl⟩ | ⟨-, rfl⟩⟩ := cases_of_passed_number passed <;> rfl

/-- A number passes over what comes right after it, or over what comes after a dangling point. -/
theorem mem_passed_number (passed : note ∈ number.passed text) :
    DanglingPoint text ∨ ∃ value, Reader.number text = .ok (value, note.left) := by
  obtain ⟨nonempty, ⟨rest, shape, none, rfl⟩ | ⟨other, rfl⟩⟩ := cases_of_passed_number passed
  · refine .inl ⟨text.takeWhile Char.isDigit, rest, nonempty, run_takeWhile text, ?_, ?_⟩
    · have stops : Stops Char.isDigit (rest.dropWhile Char.isDigit) := stops_dropWhile rest
      have whole : rest.dropWhile Char.isDigit = rest := by
        have split := List.takeWhile_append_dropWhile (p := Char.isDigit) (l := rest)
        rwa [none, List.nil_append] at split
      rwa [whole] at stops
    · rw [← shape, List.takeWhile_append_dropWhile]
  · have fraction : Numeral.scanFraction (text.dropWhile Char.isDigit) =
        ([], text.dropWhile Char.isDigit) := by
      unfold Numeral.scanFraction
      split
      · rename_i rest shape
        exact absurd shape (other rest)
      · rfl
    exact .inr (Reader.exists_number nonempty fraction)

theorem exists_passed_number (dangling : DanglingPoint text) :
    ∃ rest value, ⟨rest, .refused⟩ ∈ number.passed text ∧
      Reader.number text = .ok (value, '.' :: rest) := by
  obtain ⟨digits, rest, nonempty, run, stops, rfl⟩ := dangling
  have point : Stops Char.isDigit ('.' :: rest) := stops_cons.mpr rfl
  have first := run.takeWhile_append point
  have second := run.dropWhile_append point
  have none : rest.takeWhile Char.isDigit = [] := by
    simpa using run_nil.takeWhile_append stops
  have scanned : Numeral.scanFraction ((digits ++ '.' :: rest).dropWhile Char.isDigit) =
      ([], '.' :: rest) := by
    simp [second, Numeral.scanFraction, none]
  obtain ⟨value, read⟩ := Reader.exists_number (first.symm ▸ nonempty) scanned
  refine ⟨rest, value, ?_, read⟩
  simp only [number, first, second, nonempty, none, if_false, if_true, List.mem_singleton]

end Watched

namespace Form
open Reader

variable {text left inner place : List Char} {notes : List Note} {note : Note} {form other : Form}
  {call : String} {hours value : Double}

/-- The function that a form calls. -/
def call? : Form → Option String
  | .solar => some "solar"
  | .proportional => some "proportional_hours"
  | _ => none

theorem eq_of_call? (named : form.call? = some call) (again : other.call? = some call) :
    form = other := by
  have same := named.trans again.symm
  cases form <;> cases other <;>
    first | rfl | exact absurd same (by decide) | exact absurd named nofun

/-- The beginning of a call. -/
def opened (call : String) : Reader Unit := do
  spaced (word call)
  opening

/-- The beginning of a proportional call up to its day. -/
def beforeDay : Reader Double := do
  opened "proportional_hours"
  let hours ← expecting .hours (spaced number)
  separator
  return hours

theorem beforeDay_eq_ok_iff :
    beforeDay text = .ok (hours, inner) ↔
      ∃ first middle, opened "proportional_hours" text = .ok ((), first) ∧
        expecting .hours (spaced number) first = .ok (hours, middle) ∧
          separator middle = .ok ((), inner) := by
  simp only [beforeDay, bind_eq_ok_iff, pure_apply, Except.ok.injEq, Prod.mk.injEq]
  constructor
  · rintro ⟨_, first, opens, _, middle, count, _, _, comma, rfl, rfl⟩
    exact ⟨first, middle, opens, count, comma⟩
  · rintro ⟨first, middle, opens, count, comma⟩
    exact ⟨_, first, opens, _, middle, count, _, _, comma, rfl, rfl⟩

/-- A call whose first argument is a number. -/
def called (call : String) (part : Expectation) (rest : Double → Reader Formula) :
    Reader Formula := do
  spaced (word call)
  opening
  let number ← expecting part (spaced number)
  separator
  rest number

/-- A proportional call from its day on. -/
def fromDay (hours : Double) : Reader Formula := do
  let day ← expecting .day (either customDay (spaced standardDay))
  closing
  return .proportional hours day

theorem orderly_fromDay (hours : Double) : (fromDay hours).Orderly :=
  ((orderly_customDay.either standardDay_reads.orderly.spaced).expecting _).bind fun _ =>
    orderly_closing.bind fun _ => orderly_pure _

/-- The forms that call a function read a number first. -/
theorem exists_called (named : form.call? = some call) :
    ∃ part rest, form.reader = called call part rest ∧ ∀ value, (rest value).Orderly := by
  cases form with
  | solar =>
      obtain rfl := Option.some.inj named
      exact ⟨.angle, _, rfl, fun _ => (direction_reads.orderly.spaced.expecting _).bind fun _ =>
        orderly_closing.bind fun _ => orderly_pure _⟩
  | proportional =>
      obtain rfl := Option.some.inj named
      exact ⟨.hours, fromDay, rfl, orderly_fromDay⟩
  | _ => exact absurd named nofun

/-- What a call leaves after its first number. -/
theorem whole_called {part : Expectation} {rest : Double → Reader Formula}
    (opens : opened call text = .ok ((), inner)) (read : number inner = .ok (value, left)) :
    (called call part rest).whole text =
      (separator >>= fun _ => rest value).whole (left.dropWhile isGap) := by
  obtain ⟨_, _, word, opens⟩ := bind_eq_ok_iff.mp opens
  have spacedRead : spaced number inner = .ok (value, left.dropWhile isGap) := by
    rw [spaced_eq_ok_iff, dropWhile_eq (stops_of_expecting opens)]
    exact ⟨left, read, rfl⟩
  unfold called
  rw [whole_bind word, whole_bind opens, whole_bind (expecting_eq_ok_iff.mpr spacedRead)]

open Watched in
/-- The failures that a call recovers from are those of its number and those after it. -/
theorem mem_passed_called {part : Expectation} {rest : Double → Watched Formula} :
    note ∈ (ofReader (Reader.spaced (word call)) >>= fun _ => ofReader opening >>= fun _ =>
        Watched.expecting part (Watched.spaced Watched.number) >>= rest).passed text ↔
      ∃ inner, opened call text = .ok ((), inner) ∧
        (note ∈ Watched.number.passed inner ∨
          ∃ hours left, Reader.expecting part (Reader.spaced number) inner = .ok (hours, left) ∧
            note ∈ (rest hours).passed left) := by
  rw [mem_passed_ofReader_bind]
  constructor
  · rintro ⟨_, middle, word, passed⟩
    obtain ⟨_, inner, opens, passed⟩ := mem_passed_ofReader_bind.mp passed
    refine ⟨inner, bind_eq_ok_iff.mpr ⟨_, middle, word, opens⟩, ?_⟩
    rcases mem_passed_bind.mp passed with within | behind
    · rw [← dropWhile_eq (stops_of_expecting opens)]
      exact .inl (mem_passed_spaced.mp within)
    · exact .inr behind
  · rintro ⟨inner, opens, passed⟩
    obtain ⟨_, middle, word, opens⟩ := bind_eq_ok_iff.mp opens
    refine ⟨_, middle, word, mem_passed_ofReader_bind.mpr ⟨_, inner, opens, ?_⟩⟩
    refine mem_passed_bind.mpr (passed.imp_left fun within => mem_passed_spaced.mpr ?_)
    rwa [dropWhile_eq (stops_of_expecting opens)]

theorem mem_passed_solar_iff :
    note ∈ Form.solar.watched.passed text ↔
      ∃ inner, opened "solar" text = .ok ((), inner) ∧ note ∈ Watched.number.passed inner := by
  rw [watched, mem_passed_called]
  simp only [Watched.mem_passed_ofReader_bind, Watched.passed_pure, List.not_mem_nil, and_false,
    exists_false, or_false]

theorem mem_passed_day_iff :
    note ∈ (Watched.expecting .day (Watched.either (.ofReader customDay)
        (.ofReader (spaced standardDay)))).passed text ↔
      ∃ notes, customDay text = .error notes ∧ note ∈ notes := by
  simp only [Watched.expecting, Watched.either, Watched.ofReader, List.nil_append]
  cases customDay text <;> simp

theorem mem_passed_proportional_iff :
    note ∈ Form.proportional.watched.passed text ↔
      (∃ inner, opened "proportional_hours" text = .ok ((), inner) ∧
        note ∈ Watched.number.passed inner) ∨
      ∃ hours inner notes, beforeDay text = .ok (hours, inner) ∧ customDay inner = .error notes ∧
        note ∈ notes := by
  rw [watched, mem_passed_called]
  simp only [Watched.mem_passed_bind, Watched.passed_ofReader, Watched.passed_pure,
    List.not_mem_nil, and_false, exists_false, or_false, false_or, mem_passed_day_iff]
  constructor
  · rintro ⟨inner, opens, within | ⟨hours, _, count, _, left, comma, notes, broken, member⟩⟩
    · exact .inl ⟨inner, opens, within⟩
    · exact .inr ⟨hours, left, notes, beforeDay_eq_ok_iff.mpr ⟨inner, _, opens, count, comma⟩,
        broken, member⟩
  · rintro (⟨inner, opens, within⟩ | ⟨hours, left, notes, before, broken, member⟩)
    · exact ⟨inner, opens, .inl within⟩
    · obtain ⟨inner, _, opens, count, comma⟩ := beforeDay_eq_ok_iff.mp before
      exact ⟨inner, opens, .inr ⟨_, _, count, _, _, comma, notes, broken, member⟩⟩

/-- Recovering from these failures loses the furthest one. -/
inductive Overlooks (text : List Char) : Prop where
  /-- A point in the number of a call that no digit follows. -/
  | point {form : Form} {call : String} {inner : List Char} :
      form.call? = some call → opened call text = .ok ((), inner) → DanglingPoint inner →
      Overlooks text
  /-- A custom day that breaks off. -/
  | day {hours : Double} {inner left : List Char} {notes : List Note} :
      beforeDay text = .ok (hours, inner) → spaced (word "custom") inner = .ok ((), left) →
      customDay inner = .error notes → Overlooks text

/-- What a proportional call leaves at its day. -/
theorem whole_beforeDay (before : beforeDay text = .ok (hours, inner)) :
    proportionalReader.whole text = (fromDay hours).whole inner := by
  obtain ⟨_, _, opens, count, comma⟩ := beforeDay_eq_ok_iff.mp before
  obtain ⟨_, _, word, opens⟩ := bind_eq_ok_iff.mp opens
  unfold proportionalReader
  rw [whole_bind word, whole_bind opens, whole_bind count, whole_bind comma]
  rfl

theorem stops_of_beforeDay (before : beforeDay text = .ok (hours, inner)) : Stops isGap inner := by
  obtain ⟨_, _, -, -, comma⟩ := beforeDay_eq_ok_iff.mp before
  exact stops_of_expecting comma

/-- A day that does not begin with the word for a custom one is refused where it begins. -/
theorem eq_of_customDay (stops : Stops isGap text)
    (other : ¬ ∃ left, spaced (word "custom") text = .ok ((), left))
    (broken : customDay text = .error notes) (member : note ∈ notes) :
    note = ⟨text, .refused⟩ := by
  cases read : spaced (word "custom") text with
  | ok result => exact absurd ⟨_, read⟩ other
  | error earlier =>
      rw [customDay, bind_apply, read] at broken
      obtain rfl := Except.error.inj broken
      obtain ⟨left, rfl⟩ := refuses_ofScan.spaced text earlier read
      obtain rfl := List.mem_singleton.mp member
      have begins : left = text := (prompt_ofScan.spaced text _ stops read).2 _ member
      rw [begins]

/-- A name that lacks an at sign lacks it where the text begins. -/
theorem eq_of_passed_zman (stops : Stops isGap text)
    (passed : note ∈ (Watched.spaced Watched.zman).passed text) : note = ⟨text, .missing '@'⟩ := by
  rw [Watched.mem_passed_spaced, dropWhile_eq stops] at passed
  unfold Watched.zman at passed
  dsimp only at passed
  split at passed
  · simp at passed
  · exact List.mem_singleton.mp passed

theorem eq_of_passed_offset (stops : Stops isGap text)
    (passed : note ∈ Form.offset.watched.passed text) : note = ⟨text, .missing '@'⟩ := by
  simp only [watched, Watched.mem_passed_bind, Watched.passed_ofReader, Watched.passed_pure,
    List.not_mem_nil, and_false, exists_false, or_false] at passed
  exact eq_of_passed_zman stops passed

theorem eq_of_passed_fixedZman (stops : Stops isGap text)
    (passed : note ∈ Form.fixedZman.watched.passed text) : note = ⟨text, .missing '@'⟩ := by
  simp only [watched, Watched.mem_passed_bind, Watched.passed_pure,
    List.not_mem_nil, and_false, exists_false, or_false] at passed
  exact eq_of_passed_zman stops passed

/-- The failures that a form recovers from name no part, unless one is overlooked. -/
theorem part?_of_passed (stops : Stops isGap text) (sound : ¬ Overlooks text)
    (passed : note ∈ form.watched.passed text) : note.part? = none := by
  cases form with
  | solar =>
      obtain ⟨_, -, passed⟩ := mem_passed_solar_iff.mp passed
      exact Watched.part?_of_passed_number passed
  | proportional =>
      rcases mem_passed_proportional_iff.mp passed with
        ⟨_, -, passed⟩ | ⟨hours, inner, notes, before, broken, member⟩
      · exact Watched.part?_of_passed_number passed
      · rw [eq_of_customDay (stops_of_beforeDay before) ?_ broken member, Note.part?]
        rintro ⟨left, word⟩
        exact sound (.day before word broken)
  | offset => rw [eq_of_passed_offset stops passed, Note.part?]
  | fixedZman => rw [eq_of_passed_fixedZman stops passed, Note.part?]

/-- The failures that a form recovers from lie no further than those that it ends with, unless one
is overlooked. -/
theorem length_le_of_passed (stops : Stops isGap text) (sound : ¬ Overlooks text)
    (untaken : form.read? text = none) (settled : Settled place (form.kept text))
    (passed : note ∈ form.watched.passed text) : place.length ≤ note.left.length := by
  have failed := whole_eq_error untaken
  have within : place.length ≤ text.length := form.orderly_reader.length_le failed settled
  have number {call : String} {inner : List Char} (named : form.call? = some call)
      (opens : opened call text = .ok ((), inner)) (passed : note ∈ Watched.number.passed inner) :
      place.length ≤ note.left.length := by
    rcases Watched.mem_passed_number passed with dangling | ⟨value, read⟩
    · exact absurd (.point named opens dangling) sound
    · obtain ⟨part, rest, same, orderly⟩ := exists_called named
      rw [same, whole_called opens read] at failed
      have behind := (orderly_separator.bind fun _ => orderly value).length_le failed settled
      exact Nat.le_trans behind (List.dropWhile_suffix _).length_le
  cases form with
  | solar =>
      obtain ⟨inner, opens, passed⟩ := mem_passed_solar_iff.mp passed
      exact number rfl opens passed
  | proportional =>
      rcases mem_passed_proportional_iff.mp passed with
        ⟨inner, opens, passed⟩ | ⟨hours, inner, notes, before, broken, member⟩
      · exact number rfl opens passed
      · rw [eq_of_customDay (stops_of_beforeDay before) ?_ broken member]
        · change proportionalReader.whole text = _ at failed
          rw [whole_beforeDay before] at failed
          exact (orderly_fromDay hours).length_le failed settled
        · rintro ⟨left, word⟩
          exact sound (.day before word broken)
  | offset => rwa [eq_of_passed_offset stops passed]
  | fixedZman => rwa [eq_of_passed_fixedZman stops passed]

/-- A form fails at once on a call of another name. -/
theorem place_of_otherCall {name : String} (stops : Stops isGap text)
    (named : form.call? = some name) (taken : spaced zman text = .ok (call, left))
    (different : name ≠ call) (untaken : form.read? text = none)
    (settled : Settled place (form.kept text)) : place = text := by
  obtain ⟨part, rest, same, -⟩ := exists_called named
  have failed := whole_eq_error untaken
  rw [same] at failed
  cases read : spaced (word name) text with
  | ok result =>
      have other := taken.symm.trans (zman_of_word read)
      exact absurd (Prod.mk.inj (Except.ok.inj other)).1.symm different
  | error earlier =>
      have kept := Except.error.inj ((whole_bind_error read).symm.trans failed)
      exact settled.eq_of_left (kept ▸ (prompt_ofScan.spaced text earlier stops read).2)

/-- Neither an offset nor a name by itself goes on behind a name and a bracket. -/
theorem place_of_bracket {rest : List Char} (taken : spaced zman text = .ok (call, '(' :: rest))
    (named : form.call? = none) (untaken : form.read? text = none)
    (settled : Settled place (form.kept text)) : place = '(' :: rest := by
  have failed := whole_eq_error untaken
  cases form with
  | offset =>
      change offsetReader.whole text = _ at failed
      unfold offsetReader at failed
      rw [whole_bind taken] at failed
      have stops : Stops isGap ('(' :: rest) := stops_cons.mpr rfl
      cases read : spaced sign ('(' :: rest) with
      | ok result =>
          obtain ⟨_, _, rfl, shape⟩ := sign_reads.exists_append stops read
          generalize result.1 = side at shape
          cases side <;> exact absurd (List.head_eq_of_cons_eq shape) (by decide)
      | error earlier =>
          rw [whole_bind_error read] at failed
          have kept := Except.error.inj failed
          exact settled.eq_of_left (kept ▸ (prompt_ofScan.spaced _ earlier stops read).2)
  | fixedZman =>
      change fixedZmanReader.whole text = _ at failed
      unfold fixedZmanReader at failed
      rw [whole_bind taken] at failed
      have kept : [⟨'(' :: rest, .refused⟩] = Form.fixedZman.kept text := Except.error.inj failed
      exact settled.eq_of_left (kept ▸ by simp)
  | _ => exact absurd named nofun

/-- No form but that of the call goes on behind the bracket of a call. -/
theorem length_lt_of_opened (stops : Stops isGap text) (named : form.call? = some call)
    (opens : opened call text = .ok ((), inner)) (different : other ≠ form)
    (untaken : other.read? text = none) (settled : Settled place (other.kept text)) :
    inner.length < place.length := by
  obtain ⟨_, behind, word, bracket⟩ := bind_eq_ok_iff.mp opens
  obtain ⟨taken, rest, rfl⟩ := named_of_opening word bracket
  have short : inner.length < ('(' :: rest).length :=
    (character_reads (by decide)).length_lt (expecting_eq_ok_iff.mp bracket)
  have within : ('(' :: rest).length ≤ text.length := (orderly_zman.spaced.taken taken).length_le
  cases calls : other.call? with
  | none =>
      rw [place_of_bracket taken calls untaken settled]
      exact short
  | some name =>
      have apart : name ≠ call := by
        rintro rfl
        exact different (eq_of_call? calls named)
      rw [place_of_otherCall stops calls taken apart untaken settled]
      exact Nat.lt_of_lt_of_le short within

/-- A call with a dangling point fails at the point. -/
theorem place_of_point {rest : List Char} (named : form.call? = some call)
    (opens : opened call text = .ok ((), inner)) (read : number inner = .ok (value, '.' :: rest))
    (untaken : form.read? text = none) (settled : Settled place (form.kept text)) :
    place = '.' :: rest := by
  have failed := whole_eq_error untaken
  have stops : Stops isGap ('.' :: rest) := stops_cons.mpr rfl
  obtain ⟨part, behind, same, -⟩ := exists_called named
  rw [same, whole_called opens read, dropWhile_eq stops] at failed
  cases comma : separator ('.' :: rest) with
  | ok result =>
      obtain ⟨_, _, rfl, shape⟩ := (character_reads (by decide)).exists_append stops
        (expecting_eq_ok_iff.mp comma)
      exact absurd (List.head_eq_of_cons_eq shape) (by decide)
  | error earlier =>
      have kept := Except.error.inj ((whole_bind_error comma).symm.trans failed)
      exact settled.eq_of_left (kept ▸ (prompt_ofScan.spaced.settled stops comma).place)

/-- A proportional call with a broken custom day fails where the day begins. -/
theorem place_of_day (before : beforeDay text = .ok (hours, inner))
    (word : spaced (Reader.word "custom") inner = .ok ((), left))
    (broken : customDay inner = .error notes) (untaken : Form.proportional.read? text = none)
    (settled : Settled place (Form.proportional.kept text)) : place = inner := by
  have failed := whole_eq_error untaken
  have stops := stops_of_beforeDay before
  change proportionalReader.whole text = _ at failed
  rw [whole_beforeDay before] at failed
  cases base : expecting .day (either customDay (spaced standardDay)) inner with
  | ok result =>
      rcases either_eq_ok_iff.mp (expecting_eq_ok_iff.mp base) with custom | ⟨-, taken⟩
      · exact absurd (custom.symm.trans broken) nofun
      · obtain ⟨day, rest⟩ := result
        obtain ⟨_, ⟨standard, rfl, -⟩, -⟩ := standardDay_reads.spread taken
        exact absurd taken (custom_ne_standardDay word)
  | error earlier =>
      have kept := Except.error.inj ((whole_bind_error base).symm.trans failed)
      exact settled.eq_of_left (kept ▸ (prompt_ofScan.spaced.either.settled stops base).place)

theorem mem_passed_of_opened (named : form.call? = some call)
    (opens : opened call text = .ok ((), inner)) (passed : note ∈ Watched.number.passed inner) :
    note ∈ form.watched.passed text := by
  cases form with
  | solar =>
      obtain rfl := Option.some.inj named
      exact mem_passed_solar_iff.mpr ⟨inner, opens, passed⟩
  | proportional =>
      obtain rfl := Option.some.inj named
      exact mem_passed_proportional_iff.mpr (.inl ⟨inner, opens, passed⟩)
  | _ => exact absurd named nofun

theorem exists_opened_of_beforeDay (before : beforeDay text = .ok (hours, inner)) :
    ∃ first, opened "proportional_hours" text = .ok ((), first) ∧ inner.length ≤ first.length := by
  obtain ⟨first, _, opens, count, comma⟩ := beforeDay_eq_ok_iff.mp before
  have front := (number_reads.orderly.spaced.expecting _).taken count
  exact ⟨first, opens, (front.trans (orderly_separator.taken comma)).length_le⟩

/-- Only in a call can a failure be overlooked. -/
theorem not_overlooks_of_unopened
    (unopened : ∀ (form : Form) call inner, form.call? = some call →
      opened call text ≠ .ok ((), inner)) : ¬ Overlooks text := by
  rintro (⟨named, opens, -⟩ | ⟨before, -, -⟩)
  · exact unopened _ _ _ named opens
  · obtain ⟨first, opens, -⟩ := exists_opened_of_beforeDay before
    exact unopened .proportional _ first rfl opens

/-- When a failure is overlooked, it lies further than all that any form ends with. -/
theorem exists_passed_of_overlooks (stops : Stops isGap text) (overlooks : Overlooks text) :
    ∃ (form : Form) (note : Note), note ∈ form.watched.passed text ∧
      ∀ (other : Form) place, other.read? text = none → Settled place (other.kept text) →
        note.left.length < place.length := by
  cases overlooks with
  | @point form call inner named opens dangling =>
      obtain ⟨rest, value, passed, read⟩ := Watched.exists_passed_number dangling
      refine ⟨form, _, mem_passed_of_opened named opens passed, ?_⟩
      intro other place untaken settled
      by_cases same : other = form
      · subst same
        rw [place_of_point named opens read untaken settled]
        exact Nat.lt_succ_self _
      · have within := (number_reads.orderly.taken read).length_le
        exact Nat.lt_trans within (length_lt_of_opened stops named opens same untaken settled)
  | @day hours inner left notes before word broken =>
      obtain ⟨nonempty, -⟩ := orderly_customDay.noted broken
      obtain ⟨note, member⟩ := List.exists_mem_of_ne_nil notes nonempty
      have short : note.left.length < inner.length := by
        have rest : endpoints left = .error notes := by
          rwa [customDay, bind_apply, word] at broken
        exact Nat.lt_of_le_of_lt ((orderly_endpoints.noted rest).2 note member).length_le
          ((word_reads (by decide)).length_lt word)
      refine ⟨.proportional, note, mem_passed_proportional_iff.mpr
        (.inr ⟨hours, inner, notes, before, broken, member⟩), ?_⟩
      intro other place untaken settled
      by_cases same : other = .proportional
      · subst same
        rw [place_of_day before word broken untaken settled]
        exact short
      · obtain ⟨first, opens, within⟩ := exists_opened_of_beforeDay before
        have further := length_lt_of_opened stops rfl opens same untaken settled
        omega

end Form

end Zmanim
