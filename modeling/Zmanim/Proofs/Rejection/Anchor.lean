import Zmanim.Proofs.Rejection.Excerpt
import Zmanim.Proofs.Text.Line
/-! Anchored rejections. -/

namespace Zmanim
open Text

/-- Subtraction of words that stops at zero. -/
def wordSub (left right : UInt64) : UInt64 := if left ≤ right then 0 else left - right

theorem toNat_wordSub (left right : UInt64) :
    (wordSub left right).toNat = left.toNat - right.toNat := by
  unfold wordSub
  split
  · rename_i least
    rw [Nat.sub_eq_zero_of_le (UInt64.le_iff_toNat_le.mp least)]
    rfl
  · rename_i more
    have least : right.toNat ≤ left.toNat := by
      rw [UInt64.le_iff_toNat_le] at more
      omega
    exact UInt64.toNat_sub_of_le left right (UInt64.le_iff_toNat_le.mpr least)

/-- A span as it is stored; nothing keeps it from stopping before it starts or from lying outside the
text. -/
structure StoredSpan where
  start : UInt64
  stop : UInt64
  line : UInt64
  column : UInt64

namespace StoredSpan

variable {stored : StoredSpan} {width : UInt64}

/-- The span that a stored span stands for. -/
def span (stored : StoredSpan) : Span :=
  ⟨stored.start.toNat, stored.stop.toNat, stored.line.toNat, stored.column.toNat⟩

/-- The columns before the carets, counted in words. -/
def indent (stored : StoredSpan) (width : UInt64) : UInt64 := min (wordSub stored.column 1) width

/-- The number of carets, counted in words. -/
def carets (stored : StoredSpan) (width : UInt64) : UInt64 :=
  min (max (wordSub stored.stop stored.start) 1) (max (wordSub width (stored.indent width)) 1)

theorem toNat_indent (stored : StoredSpan) (width : UInt64) :
    (stored.indent width).toNat = Rejection.indent stored.span width.toNat := by
  rw [indent, UInt64.toNat_min, toNat_wordSub]
  rfl

theorem toNat_carets (stored : StoredSpan) (width : UInt64) :
    (stored.carets width).toNat = Rejection.carets stored.span width.toNat := by
  rw [carets, UInt64.toNat_min, UInt64.toNat_max, UInt64.toNat_max, toNat_wordSub, toNat_wordSub,
    toNat_indent]
  rfl

/-- The rejection at a stored span as it is made with words alone. -/
def rejection (stored : StoredSpan) (reason : Reason) (details : String) (source : List Char) :
    Rejection :=
  let snippet := (lines source)[(wordSub stored.line 1).toNat]?.getD []
  let width := UInt64.ofNat snippet.length
  { Rejection.advanced reason details with
    line := stored.line.toNat
    column := stored.column.toNat
    snippet := String.ofList snippet
    pointer := String.ofList (List.replicate (stored.indent width).toNat ' ' ++
      List.replicate (stored.carets width).toNat '^') }

/-- No word wraps around when the characters of the text can be counted in one. -/
theorem rejection_eq (stored : StoredSpan) (reason : Reason) (details : String)
    {source : List Char} (fits : source.length < UInt64.size) :
    stored.rejection reason details source =
      Rejection.advancedAt reason details source stored.span := by
  have index : (lines source)[(wordSub stored.line 1).toNat]?.getD [] =
      lineAt source stored.span.line := by
    rw [toNat_wordSub]
    rfl
  have least := length_lineAt_le source stored.span.line
  have width : (UInt64.ofNat (lineAt source stored.span.line).length).toNat =
      (lineAt source stored.span.line).length :=
    UInt64.toNat_ofNat_of_lt' (Nat.lt_of_le_of_lt least fits)
  unfold rejection
  dsimp only
  rw [index, toNat_indent, toNat_carets, width]
  rfl

end StoredSpan

namespace Rejection

variable {source : List Char} {span : Span}

/-- The carets of a rejection are on its line when spaces up to the column of a span stand before
them, or up to the end of the line if the column is past it, and the last caret is under the line or
is the only one. -/
structure OnLine (rejection : Rejection) (span : Span) (spaces carets : Nat) : Prop where
  pointer : rejection.pointer =
    String.ofList (List.replicate spaces ' ' ++ List.replicate carets '^')
  some : 1 ≤ carets
  column : spaces = min (max span.column 1 - 1) rejection.snippet.length
  room : spaces + carets ≤ max rejection.snippet.length (spaces + 1)

/-- A rejection is anchored at a span of a text when it names the line and the column of the span, shows
that line of the text or nothing, and has its carets on the line; zero counts as the first line and
column. The place, the line and the carets are displayed behind the headline unless the line or the
column is zero. -/
structure Anchored (rejection : Rejection) (source : List Char) (span : Span) : Prop where
  line : rejection.line = span.line
  column : rejection.column = span.column
  single : '\n' ∉ rejection.snippet.toList
  shown : ∀ line, IsLine source (max span.line 1) line → rejection.snippet = String.ofList line
  nothing : (∀ line, ¬ IsLine source (max span.line 1) line) → rejection.snippet = ""
  onLine : ∃ spaces carets, rejection.OnLine span spaces carets
  located : rejection.display = rejection.headline ++
      ("\n --> line " ++ Nat.repr span.line ++ ", column " ++ Nat.repr span.column ++ "\n  |\n"
        ++ String.ofList ((Nat.repr span.line).toList.leftpad 3 ' ') ++ " | " ++ rejection.snippet
        ++ "\n  | " ++ rejection.pointer) ↔
    span.line ≠ 0 ∧ span.column ≠ 0
  unlocated : rejection.display = rejection.headline ↔ span.line = 0 ∨ span.column = 0

theorem excerpt_ne_empty (rejection : Rejection) : rejection.excerpt ≠ "" := by
  unfold excerpt
  dsimp only
  intro empty
  simp only [String.append_eq_empty_iff] at empty
  exact absurd empty.1.2 (by decide)

/-- A rejection is displayed without its excerpt exactly when its line or its column is zero. -/
theorem display_eq_headline_iff (rejection : Rejection) :
    rejection.display = rejection.headline ↔ rejection.line = 0 ∨ rejection.column = 0 := by
  unfold display
  split
  · rename_i nowhere
    exact iff_of_true rfl nowhere
  · rename_i somewhere
    refine iff_of_false (fun same => ?_) somewhere
    exact rejection.excerpt_ne_empty (String.append_eq_left_iff.mp same)

theorem display_eq_append_iff (rejection : Rejection) :
    rejection.display = rejection.headline ++ rejection.excerpt ↔
      rejection.line ≠ 0 ∧ rejection.column ≠ 0 := by
  rw [← not_or]
  unfold display
  split
  · rename_i nowhere
    refine iff_of_false (fun same => ?_) (not_not.mpr nowhere)
    exact rejection.excerpt_ne_empty (String.append_eq_left_iff.mp same.symm)
  · rename_i somewhere
    exact iff_of_true rfl somewhere

/-- The carets reach no further than the line, except for one behind it. -/
theorem indent_add_carets_le (span : Span) (width : Nat) :
    indent span width + carets span width ≤ max width (indent span width + 1) := by
  unfold carets
  omega

/-- The rejection at any span of any text is anchored there. -/
theorem anchored_advancedAt (reason : Reason) (details : String) (source : List Char)
    (span : Span) : (advancedAt reason details source span).Anchored source span where
  line := rfl
  column := rfl
  single := by
    rw [snippet_advancedAt, String.toList_ofList]
    exact notMem_lineAt source span.line
  shown line isLine := by rw [snippet_advancedAt, lineAt_of_isLine isLine]
  nothing none := by rw [snippet_advancedAt, lineAt_of_not_isLine none, String.ofList_nil]
  onLine := by
    have width : (advancedAt reason details source span).snippet.length =
        (lineAt source span.line).length := by
      rw [snippet_advancedAt, String.length_ofList]
    refine ⟨indent span (lineAt source span.line).length,
      carets span (lineAt source span.line).length, ?pointer, ?some, ?column, ?room⟩
    case pointer => exact pointer_advancedAt
    case some => exact carets_pos span _
    case column =>
      rw [width, indent]
      omega
    case room =>
      rw [width]
      exact indent_add_carets_le span _
  located := display_eq_append_iff _
  unlocated := display_eq_headline_iff _

/-- Whatever four words make the span, no word wraps around as long as the characters of the text can be
counted in one, and the rejection is anchored at the span. -/
theorem anchored_stored (reason : Reason) (details : String) (source : String)
    (stored : StoredSpan) :
    (source.length < UInt64.size → stored.rejection reason details source.toList =
      advancedAt reason details source.toList stored.span) ∧
    (advancedAt reason details source.toList stored.span).Anchored source.toList stored.span :=
  ⟨fun fits => stored.rejection_eq reason details fits, anchored_advancedAt reason details _ _⟩

/-- A span that stops before it starts, past all columns, has one caret behind its line. -/
theorem anchored_stored_backwards :
    (StoredSpan.rejection ⟨9, 2, 0, 18446744073709551615⟩ .midpoint "" "dawn\r\n".toList).snippet =
        "dawn" ∧
      (StoredSpan.rejection ⟨9, 2, 0, 18446744073709551615⟩ .midpoint "" "dawn\r\n".toList).pointer =
        "    ^" := by
  obtain ⟨words, anchored⟩ := anchored_stored .midpoint "" "dawn\r\n" ⟨9, 2, 0, 18446744073709551615⟩
  have fits : "dawn\r\n".length < UInt64.size := by decide
  have isLine : IsLine "dawn\r\n".toList 1 "dawn".toList :=
    ⟨by decide, [], ['\r', '\n'], rfl, rfl, rfl, .carriageReturn []⟩
  have snippet := anchored.shown _ isLine
  obtain ⟨spaces, carets, onLine⟩ := anchored.onLine
  have four : spaces = 4 := by
    rw [onLine.column, snippet]
    rfl
  have one : carets = 1 := by
    have some := onLine.some
    have room := onLine.room
    rw [snippet, four] at room
    change 4 + carets ≤ 5 at room
    omega
  rw [words fits]
  refine ⟨snippet, ?_⟩
  rw [onLine.pointer, four, one]
  rfl

end Rejection

end Zmanim
