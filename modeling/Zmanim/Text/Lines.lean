/-! Splitting a text into lines. -/

namespace Zmanim.Text

/-- The lines of a text without their endings. -/
def lines : List Char → List (List Char)
  | [] => []
  | '\n' :: rest => [] :: lines rest
  | '\r' :: '\n' :: rest => [] :: lines rest
  | character :: rest =>
      match lines rest with
      | [] => [[character]]
      | line :: others => (character :: line) :: others

@[simp] theorem lines_nil : lines [] = [] := rfl

@[simp] theorem lines_lineFeed (rest : List Char) : lines ('\n' :: rest) = [] :: lines rest := by
  rw [lines]

@[simp] theorem lines_carriageReturn (rest : List Char) :
    lines ('\r' :: '\n' :: rest) = [] :: lines rest := by
  rw [lines]

/-- The line with a number counted from one, or nothing past the last; zero counts as one. -/
def lineAt (text : List Char) (number : Nat) : List Char :=
  (lines text)[number - 1]?.getD []

end Zmanim.Text
