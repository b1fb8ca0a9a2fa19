/-! Blank characters. -/

namespace Zmanim.Text

/-- The ranges of code points with the Unicode property White_Space, in increasing order. -/
def blankRanges : List (Nat × Nat) :=
  [(0x09, 0x0D), (0x20, 0x20), (0x85, 0x85), (0xA0, 0xA0), (0x1680, 0x1680), (0x2000, 0x200A),
    (0x2028, 0x2029), (0x202F, 0x202F), (0x205F, 0x205F), (0x3000, 0x3000)]

/-- A blank has the Unicode property White_Space. -/
def isBlank (character : Char) : Bool :=
  blankRanges.any fun range => range.1 ≤ character.toNat && character.toNat ≤ range.2

/-- A gap character may stand between the parts of a formula. -/
def isGap (character : Char) : Bool :=
  character == ' ' || character == '\t' || character == '\r' || character == '\n'

theorem isBlank_of_isGap {character : Char} (gap : isGap character = true) :
    isBlank character = true := by
  simp only [isGap, Bool.or_eq_true, beq_iff_eq] at gap
  rcases gap with ((rfl | rfl) | rfl) | rfl <;> decide

/-- Trimming removes the blanks at both ends of a text. -/
def trim (text : List Char) : List Char :=
  ((text.dropWhile isBlank).reverse.dropWhile isBlank).reverse

@[simp] theorem trim_nil : trim [] = [] := rfl

end Zmanim.Text
