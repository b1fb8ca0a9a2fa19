import Zmanim.Proofs.Text.Place
/-! Spans over words. -/

namespace Zmanim.Text

variable {before word : List Char} {span : Span}

/-- The number of bytes that a text takes in UTF-8. -/
def bytes (text : List Char) : Nat := (String.ofList text).utf8ByteSize

@[simp] theorem bytes_nil : bytes [] = 0 := rfl

@[simp] theorem bytes_cons (character : Char) (text : List Char) :
    bytes (character :: text) = character.utf8Size + bytes text := by
  simp [bytes, String.ofList_cons, String.utf8ByteSize_append]

@[simp] theorem bytes_append (first second : List Char) :
    bytes (first ++ second) = bytes first + bytes second := by
  simp [bytes, String.ofList_append, String.utf8ByteSize_append]

/-- Every character takes a byte at least. -/
theorem length_le_bytes (text : List Char) : text.length ≤ bytes text := by
  induction text with
  | nil => exact Nat.le_refl 0
  | cons character rest ih =>
      have size := character.utf8Size_pos
      rw [List.length_cons, bytes_cons]
      omega

/-- The bytes are as many as the characters exactly when every character takes one. -/
theorem bytes_eq_length_iff {text : List Char} :
    bytes text = text.length ↔ ∀ character ∈ text, character.utf8Size = 1 := by
  induction text with
  | nil => simp
  | cons character rest ih =>
      have size := character.utf8Size_pos
      have least := length_le_bytes rest
      rw [List.forall_mem_cons, ← ih, bytes_cons, List.length_cons]
      omega

theorem bytes_of_plain (plain : Run isPlain word) : bytes word = word.length :=
  bytes_eq_length_iff.mpr fun character member => utf8Size_of_isPlain (plain character member)

/-- The offset of a position counts the bytes before it. -/
theorem Position.offset_after_eq (position : Position) (text : List Char) :
    (position.after text).offset = position.offset + bytes text := by
  induction text generalizing position with
  | nil => rfl
  | cons character rest ih =>
      rw [after_cons, ih, offset_step, bytes_cons, Nat.add_assoc]

theorem Position.offset_start_after (text : List Char) :
    (Position.start.after text).offset = bytes text := by
  rw [offset_after_eq, start, Nat.zero_add]

/-- A span covers a word behind some text when it counts the bytes up to the word and up to the end of
the word, and its line and column are those of the first character of the word. -/
structure Span.Covers (span : Span) (before word : List Char) : Prop where
  start : span.start = bytes before
  stop : span.stop = bytes before + bytes word
  line : span.line = 1 + before.count '\n'
  column : span.column = 1 + (lineBefore before).length

namespace Span

theorem covers_between (before word : List Char) :
    (between (Position.start.after before)
      ((Position.start.after before).after word)).Covers before word where
  start := Position.offset_start_after before
  stop := (Position.offset_after_eq _ word).trans (by rw [Position.offset_start_after])
  line := Position.line_after before
  column := Position.column_after before

/-- The number of bytes of a span is that of the word it covers. -/
theorem Covers.length_eq (covers : span.Covers before word) : span.length = bytes word := by
  rw [length, covers.stop, covers.start, Nat.add_sub_cancel_left]

/-- A word that is not empty has a span that is not empty. -/
theorem Covers.start_lt_stop (covers : span.Covers before word) (nonempty : word ≠ []) :
    span.start < span.stop := by
  have size := length_le_bytes word
  have some := List.length_pos_iff.mpr nonempty
  rw [covers.start, covers.stop]
  omega

/-- A span over a word of a text stops inside the text. -/
theorem Covers.stop_le (covers : span.Covers before word) (after : List Char) :
    span.stop ≤ bytes (before ++ (word ++ after)) := by
  rw [covers.stop, bytes_append, bytes_append]
  omega

/-- A span holds an offset from its start on and before its stop. -/
def Holds (span : Span) (offset : Nat) : Prop := span.start ≤ offset ∧ offset < span.stop

end Span

end Zmanim.Text
