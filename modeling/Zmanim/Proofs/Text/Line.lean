import Zmanim.Proofs.Text.Place
/-! Lines of a text. -/

namespace Zmanim.Text

variable {text line rest : List Char} {number index : Nat}

/-- A line ends in front of a line feed, which may follow a carriage return, or with the text when the
line is not empty. -/
inductive Ends (line : List Char) : List Char → Prop where
  | lineFeed (rest : List Char) (plain : line.getLast? ≠ some '\r') : Ends line ('\n' :: rest)
  | carriageReturn (rest : List Char) : Ends line ('\r' :: '\n' :: rest)
  | text (nonempty : line ≠ []) : Ends line []

/-- A text has a line with a number, counted from one, when the line begins behind so many line feeds
and goes on to its end without another. -/
structure IsLine (text : List Char) (number : Nat) (line : List Char) : Prop where
  single : '\n' ∉ line
  placed : ∃ front rest, text = front ++ (line ++ rest) ∧ lineBefore front = [] ∧
    number = front.count '\n' + 1 ∧ Ends line rest

theorem Ends.append_ne_nil (ends : Ends line rest) : line ++ rest ≠ [] := by
  cases ends with
  | lineFeed => simp
  | carriageReturn => simp
  | text nonempty => simpa using nonempty

/-- A piece in front of a line feed is a line that ends there, but for a carriage return. -/
theorem ends_withoutReturn (piece rest : List Char) :
    ∃ more, piece ++ '\n' :: rest = withoutReturn piece ++ more ∧ Ends (withoutReturn piece) more := by
  by_cases returned : piece.getLast? = some '\r'
  · obtain ⟨line, rfl⟩ := List.getLast?_eq_some_iff.mp returned
    have shown : withoutReturn (line ++ ['\r']) = line := by simp [withoutReturn]
    rw [shown]
    exact ⟨'\r' :: '\n' :: rest, by simp, .carriageReturn rest⟩
  · have shown : withoutReturn piece = piece := if_neg returned
    rw [shown]
    exact ⟨'\n' :: rest, rfl, .lineFeed rest returned⟩

theorem mem_of_mem_withoutReturn {character : Char} (member : character ∈ withoutReturn line) :
    character ∈ line := by
  unfold withoutReturn at member
  split at member
  · exact List.dropLast_subset line member
  · exact member

/-- The first line of a text with a line feed is cut off with its ending. -/
theorem exists_first_line (feed : '\n' ∈ text) :
    ∃ piece rest, '\n' ∉ piece ∧ text = piece ++ '\n' :: rest ∧
      lines text = withoutReturn piece :: lines rest := by
  obtain ⟨none, rest, shape⟩ := exists_lineAfter_append feed
  have cut := lines_append_lineFeed none rest
  rw [← shape] at cut
  exact ⟨lineAfter text, rest, none, shape, cut⟩

/-- Every line that is cut off from a text is one of its lines. -/
theorem isLine_of_getElem? (found : (lines text)[index]? = some line) :
    IsLine text (index + 1) line := by
  induction index generalizing text with
  | zero =>
      by_cases feed : '\n' ∈ text
      · obtain ⟨piece, rest, none, rfl, cut⟩ := exists_first_line feed
        rw [cut] at found
        obtain rfl := Option.some.inj found
        obtain ⟨more, shape, ends⟩ := ends_withoutReturn piece rest
        exact ⟨fun inside => none (mem_of_mem_withoutReturn inside), [], more, shape, rfl, rfl, ends⟩
      · by_cases nonempty : text = []
        · simp [nonempty] at found
        · rw [lines_of_notMem feed nonempty] at found
          obtain rfl := Option.some.inj found
          exact ⟨feed, [], [], by simp, rfl, rfl, .text nonempty⟩
  | succ index ih =>
      by_cases feed : '\n' ∈ text
      · obtain ⟨piece, rest, none, rfl, cut⟩ := exists_first_line feed
        rw [cut, List.getElem?_cons_succ] at found
        obtain ⟨single, front, more, rfl, behind, count, ends⟩ := ih found
        refine ⟨single, piece ++ '\n' :: front, more, by simp, ?_, ?_, ends⟩
        · rw [lineBefore_append_lineFeed, behind]
        · rw [List.count_append, List.count_eq_zero.mpr none, List.count_cons_self, Nat.zero_add, count]
      · by_cases nonempty : text = []
        · simp [nonempty] at found
        · simp [lines_of_notMem feed nonempty] at found

/-- A line of a text is the one at its index. -/
theorem IsLine.getElem? (isLine : IsLine text number line) :
    (lines text)[number - 1]? = some line := by
  obtain ⟨single, front, rest, rfl, behind, rfl, ends⟩ := isLine
  have shown : lineBefore front ++ (line ++ rest) ≠ [] := by
    rw [behind]
    exact ends.append_ne_nil
  rw [Nat.add_sub_cancel, getElem?_lines shown, behind, List.nil_append, List.nil_append,
    lineAfter_append_of_notMem single]
  cases ends with
  | lineFeed rest plain =>
      have whole : line ++ lineAfter ('\n' :: rest) = line := by simp [lineAfter]
      rw [if_pos (by simp), whole, withoutReturn, if_neg plain]
  | carriageReturn rest =>
      have whole : line ++ lineAfter ('\r' :: '\n' :: rest) = line ++ ['\r'] := by simp [lineAfter]
      rw [if_pos (by simp), whole]
      simp [withoutReturn]
  | text => rw [List.append_nil, if_neg single]

/-- The lines of a text are told by the text alone. -/
theorem getElem?_lines_iff : (lines text)[index]? = some line ↔ IsLine text (index + 1) line :=
  ⟨isLine_of_getElem?, fun isLine => isLine.getElem?⟩

/-- Only the carriage return right before a line feed is cut, and nothing stands behind the last line
feed. -/
example : lines ['a', '\r', '\r', '\n', '\n'] = [['a', '\r'], []] := by decide

/-- The line that is shown for a number is that line of the text; zero counts as one. -/
theorem lineAt_of_isLine (isLine : IsLine text (max number 1) line) : lineAt text number = line := by
  have index : max number 1 - 1 = number - 1 := by omega
  rw [lineAt, ← index, isLine.getElem?, Option.getD_some]

/-- No line is shown for a number that no line of the text has. -/
theorem lineAt_of_not_isLine (none : ∀ line, ¬ IsLine text (max number 1) line) :
    lineAt text number = [] := by
  have index : max number 1 = number - 1 + 1 := by omega
  have past : (lines text)[number - 1]? = Option.none := by
    rw [Option.eq_none_iff_forall_ne_some]
    intro line found
    exact none line (index ▸ isLine_of_getElem? found)
  rw [lineAt, past, Option.getD_none]

/-- A line that is shown is a line of the text, or there is none with its number. -/
theorem lineAt_cases (text : List Char) (number : Nat) :
    IsLine text (max number 1) (lineAt text number) ∨ lineAt text number = [] := by
  by_cases some : ∃ line, IsLine text (max number 1) line
  · obtain ⟨line, isLine⟩ := some
    rw [lineAt_of_isLine isLine]
    exact .inl isLine
  · exact .inr (lineAt_of_not_isLine (not_exists.mp some))

theorem notMem_lineAt (text : List Char) (number : Nat) : '\n' ∉ lineAt text number := by
  rcases lineAt_cases text number with isLine | empty
  · exact isLine.single
  · simp [empty]

/-- A line has no more characters than its text. -/
theorem length_lineAt_le (text : List Char) (number : Nat) :
    (lineAt text number).length ≤ text.length := by
  rcases lineAt_cases text number with isLine | empty
  · obtain ⟨front, rest, shape, -⟩ := isLine.placed
    have lengths := congrArg List.length shape
    rw [List.length_append, List.length_append] at lengths
    omega
  · simp [empty]

end Zmanim.Text
