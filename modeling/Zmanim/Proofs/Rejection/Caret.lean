import Zmanim.Proofs.Rejection.Excerpt
/-! Carets under a word. -/

namespace Zmanim
open Text

variable {before word : List Char} {span : Span}

/-- The line of a word without a line ending shows the word behind what stands before it. -/
theorem Text.exists_lineAt_word (nonempty : word ≠ []) (noFeed : '\n' ∉ word)
    (noReturn : '\r' ∉ word) (before after : List Char) :
    ∃ more, lineAt (before ++ (word ++ after)) (1 + before.count '\n') =
      lineBefore before ++ (word ++ more) := by
  have shown : lineBefore before ++ (word ++ after) ≠ [] := by simp [nonempty]
  rw [lineAt, Nat.add_sub_cancel_left, getElem?_lines shown, Option.getD_some]
  split
  · refine ⟨withoutReturn (lineAfter after), ?_⟩
    have ends : word ++ lineAfter after = [] → (lineBefore before).getLast? ≠ some '\r' :=
      fun none => absurd (List.append_eq_nil_iff.mp none).1 nonempty
    rw [lineAfter_append_of_notMem noFeed, withoutReturn_append ends,
      withoutReturn_append_of_notMem noReturn]
  · exact ⟨after, rfl⟩

namespace Rejection

/-- A rejection underlines a word when its line shows the word from its column on, and one caret
stands under each character of the word and none elsewhere. -/
structure Underlines (rejection : Rejection) (word : List Char) : Prop where
  shown : (rejection.snippet.toList.drop (rejection.column - 1)).take word.length = word
  pointer : rejection.pointer = String.ofList
    (List.replicate (rejection.column - 1) ' ' ++ List.replicate word.length '^')

/-- There are as many carets under a word as it has bytes, but no more than its line has characters
from the word on. -/
theorem pointerRow_of_covers {more : List Char} (covers : span.Covers before word)
    (nonempty : word ≠ []) :
    pointerRow span (lineBefore before ++ (word ++ more)).length =
      List.replicate (span.column - 1) ' ' ++
        List.replicate (min (bytes word) (word.length + more.length)) '^' := by
  have some := List.length_pos_iff.mpr nonempty
  have least := length_le_bytes word
  have column := covers.column
  have behind : indent span (lineBefore before ++ (word ++ more)).length =
      (lineBefore before).length := indent_of_column column (by simp)
  have count : carets span (lineBefore before ++ (word ++ more)).length =
      min (bytes word) (word.length + more.length) := by
    rw [carets, behind, covers.length_eq, List.length_append, List.length_append]
    omega
  rw [pointerRow, behind, count, column, Nat.add_sub_cancel_left]

/-- A rejection at the span of a word underlines the word exactly when every character of it takes one
byte or nothing stands behind it on its line; otherwise there are more carets, one for each byte as far
as the line goes. -/
theorem underlines_advancedAt_iff (reason : Reason) (details : String)
    (covers : span.Covers before word) (nonempty : word ≠ []) (noFeed : '\n' ∉ word)
    (noReturn : '\r' ∉ word) (after : List Char) :
    ∃ more,
      (advancedAt reason details (before ++ (word ++ after)) span).snippet =
        String.ofList (lineBefore before ++ (word ++ more)) ∧
      (advancedAt reason details (before ++ (word ++ after)) span).pointer =
        String.ofList (List.replicate (span.column - 1) ' ' ++
          List.replicate (min (bytes word) (word.length + more.length)) '^') ∧
      ((advancedAt reason details (before ++ (word ++ after)) span).Underlines word ↔
        (∀ character ∈ word, character.utf8Size = 1) ∨ more = []) := by
  obtain ⟨more, line⟩ := exists_lineAt_word nonempty noFeed noReturn before after
  rw [← covers.line] at line
  have row := @pointerRow_of_covers before word span more covers nonempty
  rw [← line] at row
  refine ⟨more, by rw [snippet_advancedAt, line], by rw [pointer_advancedAt, row], ?_⟩
  have least := length_le_bytes word
  have enough : min (bytes word) (word.length + more.length) = word.length ↔
      bytes word = word.length ∨ more.length = 0 := by omega
  rw [← bytes_eq_length_iff, ← List.length_eq_zero_iff, ← enough]
  constructor
  · intro underlines
    have same := underlines.pointer
    rw [pointer_advancedAt, column_advancedAt, row, String.ofList_inj, List.append_cancel_left_eq,
      List.replicate_inj] at same
    exact same.1
  · intro same
    refine ⟨?shown, ?pointer⟩
    case shown =>
      rw [snippet_advancedAt, column_advancedAt, String.toList_ofList, line, covers.column,
        Nat.add_sub_cancel_left, List.drop_left, List.take_left]
    case pointer => rw [pointer_advancedAt, column_advancedAt, row, same]

/-- The last word of a line is underlined whatever bytes it takes. -/
theorem underlines_advancedAt_lastWord :
    Span.Covers ⟨2, 7, 1, 3⟩ "a ".toList "été".toList ∧
      (advancedAt .unknownSyntax "Unknown word" ("a ".toList ++ ("été".toList ++ "\r\nb".toList))
        ⟨2, 7, 1, 3⟩).Underlines "été".toList := by
  have covers : Span.Covers ⟨2, 7, 1, 3⟩ "a ".toList "été".toList := ⟨rfl, rfl, rfl, rfl⟩
  obtain ⟨more, snippet, -, underlines⟩ :=
    underlines_advancedAt_iff .unknownSyntax "Unknown word" covers (by decide) (by decide)
      (by decide) "\r\nb".toList
  have shown : "a ".toList ++ "été".toList = "a ".toList ++ ("été".toList ++ more) :=
    String.ofList_inj.mp snippet
  have none : more = [] := by simpa using shown
  exact ⟨covers, underlines.mpr (.inr none)⟩

/-- An accented letter in front of other characters has more than one caret. -/
theorem not_underlines_advancedAt_accented :
    Span.Covers ⟨0, 5, 1, 1⟩ [] "été".toList ∧
      ¬ (advancedAt .unknownSyntax "Unknown word" ([] ++ ("été".toList ++ " - 5min".toList))
        ⟨0, 5, 1, 1⟩).Underlines "été".toList := by
  refine ⟨⟨rfl, rfl, rfl, rfl⟩, fun underlines => ?_⟩
  have carets : String.ofList ['^', '^', '^', '^', '^'] = String.ofList ['^', '^', '^'] :=
    underlines.pointer
  exact absurd carets (by decide)

end Rejection

end Zmanim
