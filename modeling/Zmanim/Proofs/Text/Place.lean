import Mathlib.Data.List.Induction
import Zmanim.Proofs.Text.Trim
import Zmanim.Text.Lines
import Zmanim.Text.Position
/-! Places in a text. -/

namespace Zmanim.Text

variable {before after left text : List Char}

/-- The characters since the last line feed. -/
def lineBefore (before : List Char) : List Char := (before.reverse.takeWhile (· ≠ '\n')).reverse

/-- The characters up to the next line feed. -/
def lineAfter (left : List Char) : List Char := left.takeWhile (· ≠ '\n')

/-- A line without the carriage return that may end it. -/
def withoutReturn (line : List Char) : List Char :=
  if line.getLast? = some '\r' then line.dropLast else line

theorem lineBefore_concat (before : List Char) (character : Char) :
    lineBefore (before ++ [character]) =
      if character = '\n' then [] else lineBefore before ++ [character] := by
  simp only [lineBefore, List.reverse_append, List.reverse_singleton, List.singleton_append,
    List.takeWhile_cons]
  split <;> simp_all

/-- The line of a position counts line feeds. -/
theorem Position.line_after (before : List Char) :
    (Position.start.after before).line = 1 + before.count '\n' := by
  induction before using List.reverseRecOn with
  | nil => rfl
  | append_singleton before character ih =>
      rw [after_append, after_cons, after_nil, step, List.count_append, List.count_singleton]
      split <;> simp_all [Nat.add_assoc]

/-- The column of a position counts the characters since the last line feed. -/
theorem Position.column_after (before : List Char) :
    (Position.start.after before).column = 1 + (lineBefore before).length := by
  induction before using List.reverseRecOn with
  | nil => rfl
  | append_singleton before character ih =>
      rw [after_append, after_cons, after_nil, step, lineBefore_concat]
      split <;> simp_all [Nat.add_assoc]

/-- A character opens a line or advances the column. -/
theorem Position.step_cases (position : Position) (character : Char) :
    (position.step character).line = position.line + 1 ∨
      (position.step character).line = position.line ∧
        (position.step character).column = position.column + 1 := by
  unfold step
  split
  · exact .inl rfl
  · exact .inr ⟨rfl, rfl⟩

/-- Lines and columns only go on. -/
theorem Position.le_after (position : Position) (text : List Char) :
    position.line < (position.after text).line ∨
      position.line = (position.after text).line ∧
        position.column ≤ (position.after text).column := by
  induction text generalizing position with
  | nil => exact .inr ⟨rfl, Nat.le_refl _⟩
  | cons first rest ih =>
      have further := ih (position.step first)
      rw [after_cons]
      rcases position.step_cases first with line | ⟨line, column⟩ <;> omega

/-- Only the empty text leaves the line and the column as they are. -/
theorem Position.eq_nil_of_place {position : Position}
    (line : (position.after text).line = position.line)
    (column : (position.after text).column = position.column) : text = [] := by
  cases text with
  | nil => rfl
  | cons first rest =>
      have further := (position.step first).le_after rest
      rw [after_cons] at line column
      rcases position.step_cases first with opened | ⟨same, advanced⟩ <;> omega

/-- The position in a text before what is left of it. -/
def positionOf (source left : List Char) : Position :=
  Position.start.after (source.take (source.length - left.length))

section

variable {source other : List Char}

/-- What stands before a place stands before every later place. -/
theorem exists_positionOf_eq_after (source : List Char) (within : left.length ≤ other.length) :
    ∃ more, positionOf source left = (positionOf source other).after more ∧
      source.take (source.length - left.length) =
        source.take (source.length - other.length) ++ more := by
  obtain ⟨more, shape⟩ : source.take (source.length - other.length) <+:
      source.take (source.length - left.length) := List.take_prefix_take_left (by omega)
  refine ⟨more, ?_, shape.symm⟩
  rw [positionOf, ← shape, Position.after_append]
  rfl

theorem offset_positionOf_le (within : left.length ≤ other.length) :
    (positionOf source other).offset ≤ (positionOf source left).offset := by
  obtain ⟨more, after, -⟩ := exists_positionOf_eq_after source within
  rw [after]
  exact Position.offset_le_after _ more

/-- The less is left of a text, the more bytes stand before it. -/
theorem offset_positionOf_lt (before : left.length < other.length)
    (inside : other.length ≤ source.length) :
    (positionOf source other).offset < (positionOf source left).offset := by
  obtain ⟨more, after, shape⟩ := exists_positionOf_eq_after source (Nat.le_of_lt before)
  have further : more ≠ [] := by
    rintro rfl
    have lengths := congrArg List.length shape
    simp only [List.append_nil, List.length_take] at lengths
    omega
  have least := (positionOf source other).offset_le_after more
  rw [after]
  refine Nat.lt_of_le_of_ne least fun same => further ?_
  exact Position.eq_nil_of_offset_after same.symm

/-- The line and the column of a place tell its offset. -/
theorem positionOf_eq_of_place
    (line : (positionOf source left).line = (positionOf source other).line)
    (column : (positionOf source left).column = (positionOf source other).column) :
    positionOf source left = positionOf source other := by
  rcases Nat.le_total left.length other.length with within | within
  · obtain ⟨more, after, -⟩ := exists_positionOf_eq_after source within
    rw [after] at line column ⊢
    rw [Position.eq_nil_of_place line column, Position.after_nil]
  · obtain ⟨more, after, -⟩ := exists_positionOf_eq_after source within
    rw [after] at line column ⊢
    rw [Position.eq_nil_of_place line.symm column.symm, Position.after_nil]

end

/-- The pieces between line feeds are one more than the line feeds. -/
theorem length_splitOn (text : List Char) :
    (text.splitOn '\n').length = text.count '\n' + 1 := by
  induction text with
  | nil => rfl
  | cons first rest ih =>
      rw [List.splitOn_cons_eq_if_modifyHead, List.count_cons]
      split <;> simp [ih]

theorem head?_splitOn (text : List Char) : (text.splitOn '\n').head? = some (lineAfter text) := by
  induction text with
  | nil => rfl
  | cons first rest ih =>
      rw [List.splitOn_cons_eq_if_modifyHead, lineAfter, List.takeWhile_cons]
      split <;> simp_all [lineAfter]

/-- The piece that a place is in reaches from line feed to line feed. -/
theorem getElem?_splitOn (before left : List Char) :
    ((before ++ left).splitOn '\n')[before.count '\n']? =
      some (lineBefore before ++ lineAfter left) := by
  induction before using List.reverseRecOn generalizing left with
  | nil =>
      rw [List.nil_append, List.count_nil, ← List.head?_eq_getElem?, head?_splitOn]
      rfl
  | append_singleton before character ih =>
      rw [List.append_assoc, List.singleton_append, List.count_append, lineBefore_concat]
      split
      · rename_i feed
        subst feed
        rw [List.splitOn_append_cons_self, List.getElem?_append_right (by simp [length_splitOn]),
          length_splitOn, List.count_singleton_self, Nat.sub_self, ← List.head?_eq_getElem?,
          head?_splitOn, List.nil_append]
      · rename_i other
        have none : [character].count '\n' = 0 := by simpa [List.count_singleton] using other
        rw [none, Nat.add_zero, ih, lineAfter, List.takeWhile_cons]
        simp [other, lineAfter]

/-- A line that goes on is shortened at its end alone. -/
theorem withoutReturn_append {line more : List Char}
    (ends : more = [] → line.getLast? ≠ some '\r') :
    withoutReturn (line ++ more) = line ++ withoutReturn more := by
  cases more with
  | nil => simp [withoutReturn, ends rfl]
  | cons first rest =>
      have last : (line ++ first :: rest).getLast? = (first :: rest).getLast? := by
        rw [List.getLast?_append, List.getLast?_cons, Option.some_or]
      rw [withoutReturn, withoutReturn, last,
        List.dropLast_append_of_ne_nil (List.cons_ne_nil first rest)]
      split <;> rfl

theorem withoutReturn_append_of_notMem (none : '\r' ∉ text) (line : List Char) :
    withoutReturn (text ++ line) = text ++ withoutReturn line :=
  withoutReturn_append fun _ returned => none (List.mem_of_getLast? returned)

/-- A character that belongs to no line ending goes on in the first line. -/
theorem lines_cons {first : Char} {line : List Char} {others : List (List Char)}
    (feed : first ≠ '\n') (apart : first = '\r' → text.head? ≠ some '\n')
    (found : lines text = line :: others) : lines (first :: text) = (first :: line) :: others := by
  rw [lines.eq_4 first text feed, found]
  rintro rest rfl rfl
  exact apart rfl rfl

/-- A piece before a line feed is a line, without the carriage return that may end it. -/
theorem lines_append_lineFeed {piece : List Char} (single : '\n' ∉ piece) (rest : List Char) :
    lines (piece ++ '\n' :: rest) = withoutReturn piece :: lines rest := by
  induction piece with
  | nil => exact lines_lineFeed rest
  | cons first more ih =>
      rw [List.mem_cons, not_or] at single
      by_cases ending : first = '\r' ∧ more = []
      · obtain ⟨rfl, rfl⟩ := ending
        exact lines_carriageReturn rest
      · have ends : more = [] → [first].getLast? ≠ some '\r' := fun none same =>
          ending ⟨Option.some.inj same, none⟩
        have apart : first = '\r' → (more ++ '\n' :: rest).head? ≠ some '\n' := by
          rintro rfl same
          cases more with
          | nil => exact ending ⟨rfl, rfl⟩
          | cons next more => exact single.2 (by simp_all)
        have shown := withoutReturn_append ends
        rw [List.singleton_append, List.singleton_append] at shown
        rw [List.cons_append, lines_cons (Ne.symm single.1) apart (ih single.2), shown]

/-- A piece that ends a text is a line as it is. -/
theorem lines_of_notMem {piece : List Char} (single : '\n' ∉ piece) (nonempty : piece ≠ []) :
    lines piece = [piece] := by
  induction piece with
  | nil => exact absurd rfl nonempty
  | cons first more ih =>
      rw [List.mem_cons, not_or] at single
      cases more with
      | nil =>
          have last : ∀ rest, first = '\r' → [] = '\n' :: rest → False := fun rest _ same =>
            absurd same (List.cons_ne_nil '\n' rest).symm
          rw [lines.eq_4 first [] (Ne.symm single.1) last]
          rfl
      | cons next more =>
          have apart : first = '\r' → (next :: more).head? ≠ some '\n' := fun _ same =>
            single.2 (by simp_all)
          exact lines_cons (Ne.symm single.1) apart (ih single.2 (List.cons_ne_nil next more))

theorem run_of_notMem (single : '\n' ∉ text) : Run (· ≠ '\n') text := by
  intro character member
  rw [decide_eq_true_eq]
  rintro rfl
  exact single member

/-- A text without a line feed is on one line. -/
theorem lineBefore_of_notMem (single : '\n' ∉ before) : lineBefore before = before := by
  rw [lineBefore, (run_of_notMem single).reverse.takeWhile_eq, List.reverse_reverse]

theorem lineAfter_append_of_notMem (single : '\n' ∉ left) (after : List Char) :
    lineAfter (left ++ after) = left ++ lineAfter after :=
  List.takeWhile_append_of_pos (run_of_notMem single)

/-- What stands before a line feed is on other lines. -/
theorem lineBefore_append_lineFeed (piece more : List Char) :
    lineBefore (piece ++ '\n' :: more) = lineBefore more := by
  have stops : Stops (· ≠ '\n') ('\n' :: piece.reverse) := stops_cons.mpr (by decide)
  rw [lineBefore, List.reverse_append, List.reverse_cons, List.append_assoc,
    List.singleton_append, stops.takeWhile_append, lineBefore]

/-- A text with a line feed is cut at the first. -/
theorem exists_lineAfter_append (feed : '\n' ∈ text) :
    '\n' ∉ lineAfter text ∧ ∃ rest, text = lineAfter text ++ '\n' :: rest := by
  have single : '\n' ∉ lineAfter text := fun member => by simpa using run_takeWhile text _ member
  refine ⟨single, ?_⟩
  have stops := @stops_dropWhile (· ≠ '\n') text
  have whole : lineAfter text ++ text.dropWhile (· ≠ '\n') = text :=
    List.takeWhile_append_dropWhile
  cases left : text.dropWhile (· ≠ '\n') with
  | nil =>
      rw [left, List.append_nil] at whole
      exact absurd feed (whole ▸ single)
  | cons first rest =>
      rw [left, stops_cons, decide_eq_false_iff_not, not_not] at stops
      exact ⟨rest, by rw [← stops, ← left, whole]⟩

/-- The line that a place is on reaches to the end of the text or to a line feed; only then a carriage
return at its end belongs to the line ending. -/
theorem getElem?_lines (shown : lineBefore before ++ left ≠ []) :
    (lines (before ++ left))[before.count '\n']? = some
      (if '\n' ∈ left then withoutReturn (lineBefore before ++ lineAfter left)
        else lineBefore before ++ left) := by
  induction count : before.count '\n' generalizing before with
  | zero =>
      have single : '\n' ∉ before := List.count_eq_zero.mp count
      rw [lineBefore_of_notMem single] at shown ⊢
      split
      · rename_i feed
        obtain ⟨none, rest, shape⟩ := exists_lineAfter_append feed
        have piece : '\n' ∉ before ++ lineAfter left := by simp [single, none]
        have cut := lines_append_lineFeed piece rest
        rw [List.append_assoc, ← shape] at cut
        rw [cut]
        rfl
      · rename_i none
        have piece : '\n' ∉ before ++ left := by simp [single, none]
        rw [lines_of_notMem piece shown]
        rfl
  | succ others ih =>
      have feed : '\n' ∈ before := List.count_pos_iff.mp (by omega)
      obtain ⟨single, rest, shape⟩ := exists_lineAfter_append feed
      have fewer : rest.count '\n' = others := by
        rw [shape, List.count_append, List.count_eq_zero.mpr single, List.count_cons_self] at count
        omega
      have cut := lines_append_lineFeed single (rest ++ left)
      have behind : lineBefore before = lineBefore rest := by
        rw [shape, lineBefore_append_lineFeed]
      rw [← List.cons_append, ← List.append_assoc, ← shape] at cut
      rw [behind] at shown ⊢
      rw [cut, List.getElem?_cons_succ, ih shown fewer]

/-- A clean place does not stand inside a line ending. -/
def Clean (before left : List Char) : Prop := before.getLast? = some '\r' → left.head? ≠ some '\n'

theorem exists_append_lineBefore (before : List Char) :
    ∃ lines, before = lines ++ lineBefore before := by
  refine ⟨(before.reverse.dropWhile (· ≠ '\n')).reverse, ?_⟩
  rw [lineBefore, ← List.reverse_append, List.takeWhile_append_dropWhile, List.reverse_reverse]

/-- A text that ends in no blank has something on its last line. -/
theorem lineBefore_append_ne_nil (nonempty : before ++ left ≠ [])
    (last : Stops isBlank (before ++ left).reverse) : lineBefore before ++ left ≠ [] := by
  intro nothing
  obtain ⟨empty, rfl⟩ := List.append_eq_nil_iff.mp nothing
  rw [List.append_nil] at nonempty last
  cases before using List.reverseRecOn with
  | nil => exact nonempty rfl
  | append_singleton before final =>
      rw [lineBefore_concat] at empty
      split at empty
      · rename_i feed
        rw [feed, List.reverse_append] at last
        exact absurd (stops_cons.mp last) (by decide)
      · simp at empty

/-- The line that a place is on. -/
theorem lineAt_place (nonempty : before ++ left ≠ [])
    (last : Stops isBlank (before ++ left).reverse) :
    lineAt (before ++ left) (1 + before.count '\n') =
      withoutReturn (lineBefore before ++ lineAfter left) := by
  rw [lineAt, Nat.add_sub_cancel_left,
    getElem?_lines (lineBefore_append_ne_nil nonempty last), Option.getD_some]
  split
  · rfl
  · rename_i none
    have ends : (lineBefore before ++ left).getLast? ≠ some '\r' := by
      intro returned
      obtain ⟨front, shape⟩ := exists_append_lineBefore before
      rw [shape, List.append_assoc, List.reverse_append] at last
      exact absurd (last.of_append '\r' (by rw [List.head?_reverse, returned]; rfl)) (by decide)
    have rest : lineAfter left = left := (run_of_notMem none).takeWhile_eq
    rw [rest, withoutReturn, if_neg ends]

/-- What stands before a clean place is shown whole, unless the text ends in a blank. -/
theorem Clean.withoutReturn_append (clean : Clean before left)
    (last : Stops isBlank (before ++ left).reverse) :
    withoutReturn (lineBefore before ++ lineAfter left) =
      lineBefore before ++ withoutReturn (lineAfter left) := by
  refine Text.withoutReturn_append fun none returned => ?_
  have final : before.getLast? = some '\r' := by
    obtain ⟨lines, shape⟩ := exists_append_lineBefore before
    rw [shape, List.getLast?_append, returned, Option.some_or]
  cases left with
  | nil =>
      rw [List.append_nil] at last
      exact absurd (last '\r' (by rw [List.head?_reverse, final]; rfl)) (by decide)
  | cons first rest =>
      refine clean final ?_
      simpa [lineAfter, List.takeWhile_cons] using none

/-- A plain character is a printable one of ASCII. -/
def isPlain (character : Char) : Bool := 32 ≤ character.toNat && character.toNat ≤ 126

theorem isPlain_of_isNamePart {character : Char} (part : isNamePart character = true) :
    isPlain character = true := by
  rw [isNamePart_eq, Bool.or_eq_true] at part
  simp only [isPlain, Bool.and_eq_true, decide_eq_true_eq]
  rcases part with start | digit
  · rcases toNat_of_isNameStart start with rfl | letter
    · decide
    · omega
  · have bounds := toNat_of_isDigit digit
    omega

/-- A plain character takes one byte. -/
theorem utf8Size_of_isPlain {character : Char} (plain : isPlain character = true) :
    character.utf8Size = 1 := by
  simp only [isPlain, Bool.and_eq_true, decide_eq_true_eq] at plain
  rw [Char.utf8Size_eq_one_iff, UInt32.le_iff_toNat_le]
  exact Nat.le_succ_of_le plain.2

variable {word : List Char}

/-- A place before a plain word is clean. -/
theorem clean_of_plain (nonempty : word ≠ []) (plain : Run isPlain word) (before after : List Char) :
    Clean before (word ++ after) := by
  obtain ⟨first, rest, rfl⟩ := List.exists_cons_of_ne_nil nonempty
  rintro - ⟨⟩
  exact absurd (run_cons.mp plain).1 (by decide)

/-- No line ends in a plain word. -/
theorem lineAfter_append (plain : Run isPlain word) (after : List Char) :
    lineAfter (word ++ after) = word ++ lineAfter after :=
  lineAfter_append_of_notMem (fun feed => absurd (plain '\n' feed) (by decide)) after

theorem withoutReturn_append_of_run (plain : Run isPlain word) (line : List Char) :
    withoutReturn (word ++ line) = word ++ withoutReturn line :=
  withoutReturn_append_of_notMem (fun returned => absurd (plain '\r' returned) (by decide)) line

end Zmanim.Text
