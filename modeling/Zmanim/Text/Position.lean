/-! Positions in a text. -/

namespace Zmanim.Text

/-- A position counts bytes from zero, and lines and columns from one. -/
structure Position where
  offset : Nat
  line : Nat
  column : Nat
deriving DecidableEq, Repr

/-- Every text begins at this position. -/
def Position.start : Position := ⟨0, 1, 1⟩

/-- A line feed opens a line; any other character advances its column. -/
def Position.step (position : Position) (character : Char) : Position :=
  if character = '\n' then ⟨position.offset + character.utf8Size, position.line + 1, 1⟩
  else ⟨position.offset + character.utf8Size, position.line, position.column + 1⟩

@[simp] theorem Position.offset_step (position : Position) (character : Char) :
    (position.step character).offset = position.offset + character.utf8Size := by
  unfold step
  split <;> rfl

/-- The position reached after a text. -/
def Position.after (position : Position) (text : List Char) : Position :=
  text.foldl Position.step position

@[simp] theorem Position.after_nil (position : Position) : position.after [] = position := rfl

@[simp] theorem Position.after_cons (position : Position) (character : Char) (text : List Char) :
    position.after (character :: text) = (position.step character).after text := rfl

theorem Position.after_append (position : Position) (first second : List Char) :
    position.after (first ++ second) = (position.after first).after second :=
  List.foldl_append

theorem Position.offset_le_after (position : Position) (text : List Char) :
    position.offset ≤ (position.after text).offset := by
  induction text generalizing position with
  | nil => exact Nat.le_refl _
  | cons first rest ih =>
      have step : position.offset ≤ (position.step first).offset := by simp
      exact Nat.le_trans step (ih _)

/-- Every character has bytes, so only the empty text leaves the offset as it is. -/
theorem Position.eq_nil_of_offset_after {position : Position} {text : List Char}
    (same : (position.after text).offset = position.offset) : text = [] := by
  cases text with
  | nil => rfl
  | cons first rest =>
      have whole := (position.step first).offset_le_after rest
      have size := first.utf8Size_pos
      rw [offset_step] at whole
      rw [after_cons] at same
      omega

/-- A span covers the bytes from `start` up to `stop` and is anchored at a line and column. -/
structure Span where
  start : Nat
  stop : Nat
  line : Nat
  column : Nat
deriving DecidableEq, Repr

/-- The span between two positions is anchored at the first. -/
def Span.between (first last : Position) : Span :=
  ⟨first.offset, last.offset, first.line, first.column⟩

/-- The empty span at a position. -/
def Span.point (position : Position) : Span := Span.between position position

/-- The number of bytes covered; a span that stops before it starts covers none. -/
def Span.length (span : Span) : Nat := span.stop - span.start

/-- An empty span covers no bytes. -/
def Span.isEmpty (span : Span) : Bool := span.length == 0

@[simp] theorem Span.length_point (position : Position) : (Span.point position).length = 0 :=
  Nat.sub_self _

end Zmanim.Text
