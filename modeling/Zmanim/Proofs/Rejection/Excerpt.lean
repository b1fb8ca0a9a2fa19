import Zmanim.Editor.Snapshot
import Zmanim.Proofs.Diagnosis.Blame
import Zmanim.Proofs.Formula.Reading
import Zmanim.Proofs.Formula.Stop
/-! Excerpts of rejections. -/

namespace Zmanim
open Text

namespace Rejection

variable {before left : List Char} {span : Span} {width : Nat}

/-- A rejection marks some columns at a place of a text: it names the line and the column of the
place, shows the line without its ending, and has carets from that column on. -/
structure Marks (rejection : Rejection) (before left : List Char) (width : Nat) : Prop where
  line : rejection.line = 1 + before.count '\n'
  column : rejection.column = 1 + (lineBefore before).length
  snippet : ∃ piece, ((before ++ left).splitOn '\n')[rejection.line - 1]? = some piece ∧
    rejection.snippet = String.ofList (withoutReturn piece)
  inside : rejection.column ≤ rejection.snippet.length + 1
  caret : 0 < width
  pointer : rejection.pointer =
    String.ofList (List.replicate (rejection.column - 1) ' ' ++ List.replicate width '^')

/-- A rejection marks a token at a place when the columns it marks show the spelling of the token. -/
structure MarksToken (rejection : Rejection) (placed : PlacedToken) (before left : List Char) :
    Prop where
  begins : placed.token.spelling <+: left
  span : placed.span = Span.between (Position.start.after before)
    ((Position.start.after before).after placed.token.spelling)
  marks : rejection.Marks before left placed.token.spelling.length
  shown : (rejection.snippet.toList.drop (rejection.column - 1)).take
    placed.token.spelling.length = placed.token.spelling

/-- The carets stand behind what the line shows before the place. -/
theorem indent_of_column {behind : Nat} (column : span.column = 1 + behind)
    (fits : behind ≤ width) : indent span width = behind := by
  rw [indent, column]
  omega

theorem carets_pos (span : Span) (width : Nat) : 0 < carets span width := by
  unfold carets
  omega

/-- An empty span is marked by a single caret. -/
theorem carets_of_empty (empty : span.length = 0) (width : Nat) : carets span width = 1 := by
  rw [carets, empty]
  omega

/-- A span is marked by as many carets as it has bytes when the line has room for them. -/
theorem carets_of_room {bytes : Nat} (length : span.length = bytes) (some : 0 < bytes)
    (room : indent span width + bytes ≤ width) : carets span width = bytes := by
  rw [carets, length]
  omega

variable {reason : Reason} {details : String}

/-- The line that is shown for a clean place of a text that ends in no blank. -/
theorem lineAt_of_clean (clean : Clean before left) (nonempty : before ++ left ≠ [])
    (last : Stops isBlank (before ++ left).reverse) :
    lineAt (before ++ left) (1 + before.count '\n') =
      lineBefore before ++ withoutReturn (lineAfter left) := by
  rw [lineAt_place nonempty last, clean.withoutReturn_append last]

/-- A rejection at a span that begins at a clean place marks the place. -/
theorem marks_advancedAt (clean : Clean before left) (nonempty : before ++ left ≠ [])
    (last : Stops isBlank (before ++ left).reverse)
    (line : span.line = 1 + before.count '\n')
    (column : span.column = 1 + (lineBefore before).length)
    (size : carets span (lineAt (before ++ left) span.line).length = width) :
    (advancedAt reason details (before ++ left) span).Marks before left width := by
  have shown := lineAt_of_clean clean nonempty last
  rw [← line] at shown
  have fits : (lineBefore before).length ≤ (lineAt (before ++ left) span.line).length := by
    rw [shown, List.length_append]
    exact Nat.le_add_right _ _
  refine ⟨line, column, ⟨lineBefore before ++ lineAfter left, ?piece, ?snippet⟩, ?inside, ?caret,
    ?pointer⟩
  case piece => rw [line_advancedAt, line, Nat.add_sub_cancel_left, getElem?_splitOn]
  case snippet => rw [snippet_advancedAt, shown, clean.withoutReturn_append last]
  case inside =>
    rw [column_advancedAt, snippet_advancedAt, column, String.length_ofList]
    omega
  case caret => exact size ▸ carets_pos _ _
  case pointer =>
    rw [pointer_advancedAt, column_advancedAt, pointerRow, size, indent_of_column column fits,
      column, Nat.add_sub_cancel_left]

/-- A rejection at a token that is spelled in plain characters marks the token. -/
theorem marksToken_advancedAt {placed : PlacedToken} {after : List Char}
    (span : placed.span = Span.between (Position.start.after before)
      ((Position.start.after before).after placed.token.spelling))
    (nonempty : placed.token.spelling ≠ []) (plain : Run isPlain placed.token.spelling)
    (last : Stops isBlank (before ++ (placed.token.spelling ++ after)).reverse) :
    (advancedAt reason details (before ++ (placed.token.spelling ++ after)) placed.span).MarksToken
      placed before (placed.token.spelling ++ after) := by
  have clean := clean_of_plain nonempty plain before after
  have whole : before ++ (placed.token.spelling ++ after) ≠ [] := by simp [nonempty]
  have covers : placed.span.Covers before placed.token.spelling :=
    span ▸ Span.covers_between before placed.token.spelling
  have line := covers.line
  have column := covers.column
  have bytes := covers.length_eq.trans (bytes_of_plain plain)
  have excerpt := lineAt_of_clean clean whole last
  rw [← line, lineAfter_append plain, withoutReturn_append_of_run plain] at excerpt
  have room : (lineBefore before).length + placed.token.spelling.length ≤
      (lineAt (before ++ (placed.token.spelling ++ after)) placed.span.line).length := by
    rw [excerpt, List.length_append, List.length_append]
    omega
  have size : carets placed.span
      (lineAt (before ++ (placed.token.spelling ++ after)) placed.span.line).length =
        placed.token.spelling.length := by
    refine carets_of_room bytes (List.length_pos_iff.mpr nonempty) ?_
    rwa [indent_of_column column (Nat.le_of_add_right_le room)]
  refine ⟨List.prefix_append _ after, span, marks_advancedAt clean whole last line column size, ?_⟩
  rw [snippet_advancedAt, column_advancedAt, String.toList_ofList, excerpt, column,
    Nat.add_sub_cancel_left, List.drop_left, List.take_left]

/-- A rejection at the blamed token of a finding marks the token. -/
theorem exists_marksToken {source : List Char} {finding : Finding}
    (shows : finding.Shows (placedTokens source)) (last : Stops isBlank source.reverse) :
    ∃ before left, source = before ++ left ∧
      (advancedAt reason details source finding.blamed.span).MarksToken finding.blamed before left := by
  obtain ⟨before, after, rfl, span⟩ := exists_of_mem_placedTokensFrom shows.member
  have nonempty := Token.spelling_ne_nil (legible_of_mem_placedTokensFrom shows.member)
  exact ⟨before, _, rfl, marksToken_advancedAt span nonempty shows.plain last⟩

/-- A rejection where the reading stopped marks a single column. -/
theorem marks_atStop {source : List Char} {stop : Stop} (diagnosis : Diagnosis)
    (reached : Reaches source stop.left) (nonempty : source ≠ [])
    (last : Stops isBlank source.reverse) :
    ∃ before left, source = before ++ left ∧ (atStop diagnosis source stop).Marks before left 1 := by
  obtain ⟨before, rfl, clean⟩ := reached
  have cut : (before ++ stop.left).take ((before ++ stop.left).length - stop.left.length) =
      before := by
    rw [List.length_append, Nat.add_sub_cancel, List.take_left]
  refine ⟨before, stop.left, rfl, ?_⟩
  rw [atStop, cut]
  exact marks_advancedAt clean nonempty last (Position.line_after before)
    (Position.column_after before) (carets_of_empty (Span.length_point _) _)

/-- A text with an obstacle is rejected at the blamed token. -/
theorem ofTrimmed_of_finding {source : List Char} {finding : Finding}
    (found : Finding.ofTokens? (placedTokens source) = some finding) :
    ofTrimmed source =
      advancedAt finding.obstacle.reason finding.obstacle.details source finding.blamed.span := by
  unfold ofTrimmed classified
  rw [Diagnosis.ofText, found]
  rfl

/-- A text without an obstacle is rejected where the reading stopped. -/
theorem ofTrimmed_of_stop {source : List Char} {stop : Stop}
    (nothing : Finding.ofTokens? (placedTokens source) = none)
    (stopped : Form.furthestStop? Form.all source = some stop) :
    ofTrimmed source = atStop (Diagnosis.ofText source) source stop := by
  unfold ofTrimmed classified
  rw [Diagnosis.ofText, nothing, stopped]
  rfl

/-- The rejection of a text marks the blamed token if there is one, and else a single column. -/
theorem ofTrimmed_cases {source : List Char} (untaken : Formula.ofTrimmed? source = none)
    (nonempty : source ≠ []) (last : Stops isBlank source.reverse) :
    (∃ finding before left, Finding.ofTokens? (placedTokens source) = some finding ∧
      source = before ++ left ∧ (ofTrimmed source).MarksToken finding.blamed before left) ∨
    Finding.ofTokens? (placedTokens source) = none ∧
      ∃ before left, source = before ++ left ∧ (ofTrimmed source).Marks before left 1 := by
  cases found : Finding.ofTokens? (placedTokens source) with
  | some finding =>
      obtain ⟨before, left, shape, token⟩ :=
        exists_marksToken (Finding.shows_of_ofTokens? found) last
      rw [ofTrimmed_of_finding found]
      exact .inl ⟨finding, before, left, rfl, shape, token⟩
  | none =>
      obtain ⟨stop, stopped, reached⟩ := Form.exists_furthestStop? untaken
      rw [ofTrimmed_of_stop found stopped]
      exact .inr ⟨rfl, marks_atStop (Diagnosis.ofText source) reached nonempty last⟩


/-- The excerpt of a rejection shows the right place: its line with the carets under the blamed token,
or under a single column when no token is blamed. -/
theorem marks_of_read {text : String} {rejection : Rejection}
    (read : Snapshot.read text = .error rejection) (solid : ¬ Run isBlank text.toList) :
    ∃ before left, trim text.toList = before ++ left ∧
      (∃ width, rejection.Marks before left width) ∧
      (∀ span, (Diagnosis.ofText (trim text.toList)).span = some span →
        ∃ finding, Finding.ofTokens? (placedTokens (trim text.toList)) = some finding ∧
          finding.Shows (placedTokens (trim text.toList)) ∧ finding.blamed.span = span ∧
          rejection.MarksToken finding.blamed before left) ∧
      ((Diagnosis.ofText (trim text.toList)).span = none → rejection.Marks before left 1) := by
  obtain ⟨untaken, rfl⟩ :=
    (Formula.read_eq_error_iff solid).mp (Snapshot.read_eq_error_iff.mp read)
  have nonempty := mt trim_eq_nil_iff.mp solid
  rcases ofTrimmed_cases untaken nonempty (trimmed_trim text.toList).last with
    ⟨finding, before, left, found, shape, token⟩ | ⟨nothing, before, left, shape, marks⟩
  · refine ⟨before, left, shape, ⟨_, token.marks⟩, ?_⟩
    rw [Diagnosis.ofText, found]
    constructor
    · rintro _ ⟨⟩
      exact ⟨finding, rfl, Finding.shows_of_ofTokens? found, rfl, token⟩
    · rintro ⟨⟩
  · refine ⟨before, left, shape, ⟨1, marks⟩, ?_⟩
    rw [Diagnosis.ofText, nothing]
    constructor
    · rintro _ ⟨⟩
    · exact fun _ => marks

/-- The unit of a duration is blamed behind a line ending of two characters. -/
theorem marks_of_secondLine :
    Snapshot.read "@dawn +\r\n5h" = .error (ofTrimmed "@dawn +\r\n5h".toList) ∧
      ∃ placed before left, placed.span = ⟨10, 11, 2, 2⟩ ∧
        (ofTrimmed "@dawn +\r\n5h".toList).MarksToken placed before left := by
  have read : Snapshot.read "@dawn +\r\n5h" =
      .error (ofTrimmed "@dawn +\r\n5h".toList) := rfl
  have solid : ¬ Run isBlank "@dawn +\r\n5h".toList := fun blank =>
    absurd (blank '@' (by decide)) (by decide)
  obtain ⟨before, left, -, -, token, -⟩ := marks_of_read read solid
  obtain ⟨finding, -, -, span, marks⟩ := token ⟨10, 11, 2, 2⟩ (by decide +kernel)
  exact ⟨read, finding.blamed, before, left, span, marks⟩

end Rejection

end Zmanim
